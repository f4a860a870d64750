import Multitouch.Target.Room.Words
import Multitouch.Target.Tree

/-!
# Patterns that list texts

A pattern that neither captures nor looks at places may stand for a few texts, which are told from
its sets, sequences, alternatives and repetitions; a part that matches nothing stands for none.
Texts are looked for as they are, word for word, so that no machine has to be built, however large
it would be.
-/

namespace Multitouch.Target

/-! ### Looking for words -/

namespace Words

/-- The words that none of the words before them is a beginning of. -/
def minimal (words : Words) : Words :=
  words.foldl (fun kept word =>
    if kept.any (·.isPrefixOf word) then kept else kept ++ [word]) []

/-- The number of bytes with which all words begin alike. -/
def agreement : Words → Nat
  | [] => 0
  | word :: words =>
    (List.range (word.length + 1)).foldl (fun longest n =>
      if words.all (word.take n).isPrefixOf then n else longest) 0

/-- The byte is often met with. -/
def isCommon (byte : Nat) : Bool :=
  0xC0 ≤ byte ||
    ("\n\r (),-./0129:_abcdefghilmnoprstuvxy|".toList.map Char.toNat).contains byte

/-- The words can be looked for as they are.  Those that begin alike are looked for by what they
have in common if that is rare or long, and many words by their first bytes; then there has to be
a machine for the rest. -/
def direct (words : Words) : Bool :=
  let kept := minimal words
  let shared := agreement kept
  let rare := (kept.head?.bind List.head?).any (!isCommon ·)
  !kept.isEmpty && !kept.contains [] &&
    if 1 < words.length && 1 ≤ shared && shared ≤ 3 && rare then kept.all (·.length = 1)
    else if kept.length = 1 then true
    else
      shared ≤ (if kept.length ≤ 16 then 4 else 1) &&
        (kept.length ≤ 10 || kept.any (·.length ≤ 2) || kept.all (·.length ≤ 4))

end Words

/-! ### Lists of texts -/

/-- Texts in the order in which they are to be found. -/
abbrev Texts := List (List Char)

namespace Texts

/-- The texts, unless there are too many or one of them has too many bytes. -/
def bounded (texts : Texts) : Option Texts :=
  if texts.length ≤ 250 ∧ texts.all (fun cs => (Utf8.ofText cs).length ≤ 100) then some texts
  else none

/-- The texts of one list, each followed by those of another.  After no text comes nothing, even if
it is not known what would come. -/
def cross : Option Texts → Option Texts → Option Texts
  | some [], _ => some []
  | some us, some vs => bounded (us.flatMap fun u => vs.map (u ++ ·))
  | _, _ => none

/-- The texts of both lists. -/
def join : Option Texts → Option Texts → Option Texts
  | some us, some vs => bounded (us ++ vs)
  | _, _ => none

/-- Texts in a row so many times.  If that is more than ten times, it is not known where they
end. -/
def power (texts : Option Texts) (n : Nat) : Option Texts :=
  let few := Nat.repeat (cross · texts) (min n 10) (some [[]])
  if n ≤ 10 ∨ few = some [] then few else none

/-- The characters of a set, if there are not more than ten. -/
def ofSet (s : Charset) : Option Texts :=
  if s.ranges.foldl (fun n (a, b) => n + (b + 1 - a)) 0 ≤ 10 then
    some (s.ranges.flatMap fun (a, b) =>
      (List.range (b + 1 - a)).map fun k => [Char.ofNat (a + k)])
  else none

end Texts

/-! ### The texts of a pattern -/

namespace Tree

mutual

/-- The tree neither captures nor looks at places. -/
def plain : Tree → Bool
  | empty => true
  | text _ => true
  | set _ _ => true
  | place _ => false
  | sequence members => allPlain members
  | choice alternatives => allPlain alternatives
  | repeated body _ _ _ => body.plain
  | capture _ => false

/-- None of the trees captures or looks at places. -/
def allPlain : List Tree → Bool
  | [] => true
  | t :: ts => t.plain && allPlain ts

end

mutual

/-- The texts that the tree stands for, if they are known and there are not too many. -/
def texts? : Tree → Option Texts
  | empty => some [[]]
  | text cs => Texts.bounded [cs]
  | set s _ => Texts.ofSet s
  | place _ => some [[]]
  | sequence members => (allTexts? members).foldl Texts.cross (some [[]])
  | choice alternatives => (allTexts? alternatives).foldl Texts.join (some [])
  | repeated body least most _ =>
    let texts := body.texts?
    if least = 0 then
      if most = some 1 then Texts.join texts (some [[]])
      else if texts = some [] then some [[]] else none
    else
      let all := Texts.power texts least
      if most = some least ∨ all = some [] then all else none
  | capture body => body.texts?

/-- The texts that each of the trees stands for. -/
def allTexts? : List Tree → List (Option Texts)
  | [] => []
  | t :: ts => t.texts? :: allTexts? ts

end

/-- A tree that stands for the same and for which no machine is built: a choice between the texts
that it stands for if these can be looked for as they are, or the tree itself if it is a choice
between so many texts that no machine is better. -/
def listing? (t : Tree) : Option Tree :=
  if t.plain then
    match t.texts? with
    | some texts =>
      if Words.direct (texts.map Utf8.ofText) then some (choice (texts.map text)) else many
    | none => many
  else none
where
  /-- The tree itself if it is a choice between very many texts. -/
  many : Option Tree :=
    match t with
    | choice alternatives =>
      if 3000 ≤ alternatives.length ∧ alternatives.all isText then some t else none
    | _ => none
  /-- The tree is a text. -/
  isText : Tree → Bool
    | text _ => true
    | _ => false

end Tree

end Multitouch.Target
