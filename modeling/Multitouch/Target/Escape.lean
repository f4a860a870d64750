import Multitouch.Target.Flags

/-!
# Escapes

What a backslash and the characters after it stand for in a target pattern.  A reader answers
what it read and the text that is left, or nothing if the text is no pattern.
-/

namespace Multitouch.Target

/-- What an escape stands for. -/
inductive Atom where
  /-- A character; `byte` if it was written as a byte with two hexadecimal digits. -/
  | literal (c : Char) (byte : Bool)
  | set (s : Charset)
  | place (p : Place)

/-- The value of a hexadecimal digit. -/
def hexDigit? (c : Char) : Option Nat :=
  if c.isDigit then some (c.toNat - '0'.toNat)
  else if 'a' ≤ c ∧ c ≤ 'f' then some (c.toNat - 'a'.toNat + 10)
  else if 'A' ≤ c ∧ c ≤ 'F' then some (c.toNat - 'A'.toNat + 10)
  else none

/-- The character with a number. -/
def char? (n : Nat) : Option Char :=
  if n.isValidChar then some (Char.ofNat n) else none

/-- Reads the given number of hexadecimal digits, with `value` before them. -/
def hexRun (f : Flags) (value : Nat) : Nat → List Char → Option (Nat × List Char)
  | 0, text => some (value, text)
  | count + 1, text =>
    match f.next text with
    | c :: rest => do hexRun f (16 * value + (← hexDigit? c)) count rest
    | [] => none

/-- Reads hexadecimal digits up to a closing brace; `value` is that of the digits before, if
there are any. -/
def hexBraces (f : Flags) (fuel : Nat) (value : Option Nat) (text : List Char) :
    Option (Nat × List Char) :=
  match fuel, f.next text with
  | _, [] => none
  | _, '}' :: rest => value.map (·, rest)
  | 0, _ => none
  | fuel + 1, c :: rest => do
    hexBraces f fuel (some (16 * value.getD 0 + (← hexDigit? c))) rest

/-- Reads the number of a character, as many digits long as its letter says, or in braces. -/
def hexEscape (f : Flags) (letter : Char) (text : List Char) : Option (Atom × List Char) := do
  match f.next text with
  | '{' :: rest =>
    let (n, rest) ← hexBraces f rest.length none rest
    return (.literal (← char? n) false, rest)
  | text =>
    let count := if letter = 'x' then 2 else if letter = 'u' then 4 else 8
    let (n, rest) ← hexRun f 0 count text
    return (.literal (← char? n) (letter = 'x'), rest)

/-- A character that the name of a kind of word edge may hold. -/
def isEdgeNameChar (c : Char) : Bool :=
  ('a' ≤ c && c ≤ 'z') || ('A' ≤ c && c ≤ 'Z') || c == '-'

/-- Reads the name of a kind of word edge up to a closing brace; `seen` is what was passed,
the latest first. -/
def edgeName (f : Flags) (seen : List Char) (fuel : Nat) (text : List Char) :
    Option (String × List Char) :=
  match fuel, f.next text with
  | _, '}' :: rest => some (String.ofList seen.reverse, rest)
  | fuel + 1, c :: rest => if isEdgeNameChar c then edgeName f (c :: seen) fuel rest else none
  | _, _ => none

/-- Reads what may follow the escape for a word edge: its kind in braces.  Other braces are a
repetition, which is left for later. -/
def wordEdge (f : Flags) (text : List Char) : Option (Atom × List Char) :=
  match text with
  | '{' :: inner =>
    match f.next inner with
    | [] => none
    | c :: rest =>
      if isEdgeNameChar c then do
        let (name, rest) ← edgeName f [] (rest.length + 1) (c :: rest)
        match name with
        | "start" => some (.place (.wordStart f.word), rest)
        | "end" => some (.place (.wordEnd f.word), rest)
        | "start-half" => some (.place (.wordStartHalf f.word), rest)
        | "end-half" => some (.place (.wordEndHalf f.word), rest)
        | _ => none
      else some (.place (.wordEdge f.word), text)
  | _ => some (.place (.wordEdge f.word), text)

/-- A character that stands for itself after a backslash: one of the first 128 that is neither a
letter nor a digit nor an angle bracket. -/
def isPunctuation (c : Char) : Bool :=
  c.toNat < 0x80 && !c.isAlphanum && c != '<' && c != '>'

/-- Reads an escape from the character after the backslash on. -/
def escape (f : Flags) : List Char → Option (Atom × List Char)
  | [] => none
  | c :: rest =>
    if c = 'x' ∨ c = 'u' ∨ c = 'U' then hexEscape f c rest
    else if c = 'b' then wordEdge f rest
    else do return (← one c, rest)
where
  /-- Escapes of a single character. -/
  one (c : Char) : Option Atom :=
    match c with
    | 'd' => some (.set f.digit)
    | 's' => some (.set f.blank)
    | 'w' => some (.set f.word)
    | 'D' => (f.negate f.digit).map .set
    | 'S' => (f.negate f.blank).map .set
    | 'W' => (f.negate f.word).map .set
    | 'a' => some (.literal '\x07' false)
    | 'f' => some (.literal '\x0C' false)
    | 't' => some (.literal '\t' false)
    | 'n' => some (.literal '\n' false)
    | 'r' => some (.literal '\r' false)
    | 'v' => some (.literal '\x0B' false)
    | 'A' => some (.place .textStart)
    | 'z' => some (.place .textEnd)
    | 'B' => some (.place (.noWordEdge f.word))
    | '<' => some (.place (.wordStart f.word))
    | '>' => some (.place (.wordEnd f.word))
    | c => if isPunctuation c then some (.literal c false) else none

end Multitouch.Target
