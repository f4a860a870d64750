import Mathlib.Data.List.Basic
import Mathlib.Data.List.Induction
import Multitouch.Automaton.Graphviz
import Multitouch.Proofs.Grammar.Tokens

/-!
# Drawings can be read back

A drawing is read statement by statement (`Graphviz.decode`): a label goes on to the first quote
that no backslash is before, and what comes after it is not looked at until then.  A quote within
a label always has an odd number of backslashes before it (`escape_quotes`), so a label ends
where it was meant to, whatever text it is made of, and nothing in it is taken for a statement.
What is read is what has been drawn (`graphviz_faithful`).
-/

namespace Multitouch

namespace Graphviz

/-- A way from one state to another. -/
structure Arrow where
  source : Nat
  dest : Nat
  key : Key
  target : String
  deriving DecidableEq, Repr

/-- What a drawing shows: the states in the order of their numbers, each with the text of its tag
and whether it is final, and the ways between them. -/
structure Drawing where
  states : List (String × Bool)
  arrows : List Arrow
  deriving DecidableEq, Repr

end Graphviz

/-- The ways from a state, in the order of its edges. -/
def State.arrows (n : Nat) (s : State) : List Graphviz.Arrow :=
  s.edges.flatMap fun e => e.dests.map fun d => ⟨n, d, e.key, e.target.source⟩

/-- What the drawing of an automaton is to show. -/
def Automaton.drawing (A : Automaton) : Graphviz.Drawing where
  states := A.states.toList.map fun s => (s.tag.text, s.final)
  arrows := (A.states.toList.mapIdx State.arrows).flatten

namespace Graphviz

/-! ### The reader -/

/-- A statement of a drawing, with the text of its label. -/
inductive Statement where
  | node (label : List Char) (final : Bool) (n : Nat)
  | arrow (source dest : Nat) (label : List Char)
  deriving DecidableEq, Repr

/-- Reads a given word. -/
def pass (word : String) (text : List Char) : Option (List Char) :=
  word.toList.isPrefixOf? text

/-- Reads a number. -/
def numeral (text : List Char) : Option (Nat × List Char) :=
  let digits := text.takeWhile Char.isDigit
  if digits = [] then none else some (Grammar.value digits, text.dropWhile Char.isDigit)

/-- Reads on to the quote that closes a label; a backslash stands for the character after it. -/
def quoted : List Char → Option (List Char × List Char)
  | [] => none
  | '"' :: rest => some ([], rest)
  | '\\' :: c :: rest => (quoted rest).map fun r => (c :: r.1, r.2)
  | c :: rest => (quoted rest).map fun r => (c :: r.1, r.2)

/-- Reads what makes a state final, if it is there. -/
def circle (text : List Char) : Bool × List Char :=
  match pass ", shape=doublecircle" text with
  | some rest => (true, rest)
  | none => (false, text)

def readNode (text : List Char) : Option (Statement × List Char) := do
  let text ← pass "node[label=\"" text
  let (label, text) ← quoted text
  let (final, text) := circle text
  let text ← pass "] id" text
  let (n, text) ← numeral text
  let text ← pass "\n" text
  return (.node label final n, text)

def readArrow (text : List Char) : Option (Statement × List Char) := do
  let text ← pass "id" text
  let (source, text) ← numeral text
  let text ← pass " -> id" text
  let (dest, text) ← numeral text
  let text ← pass " [label=\"" text
  let (label, text) ← quoted text
  let text ← pass "]\n" text
  return (.arrow source dest label, text)

def readStatement (text : List Char) : Option (Statement × List Char) :=
  (readNode text).or (readArrow text)

/-- Reads statements up to the closing brace, with which the text must end. -/
def readStatements (text : List Char) : Option (List Statement) :=
  if pass "\x7d\n" text = some [] then some []
  else
    match readStatement text with
    | some (s, rest) =>
      if _h : rest.length < text.length then (readStatements rest).map (s :: ·) else none
    | none => none
termination_by text.length

/-- Finds the text of the tag in the label of a state. -/
def tagIn (n : Nat) (label : List Char) : Option String := do
  let (m, text) ← numeral label
  let text ← pass ":" text
  if m = n then some (String.ofList text) else none

/-- Finds the key and the target in the label of an arrow. -/
def symbolIn : List Char → Option (Key × String)
  | [] => none
  | c :: text => do
    let phase ← Phase.ofLetter? c
    let (slot, text) ← numeral text
    let text ← pass "/" text
    if text.getLast? = some '/' then some (⟨phase, slot⟩, String.ofList text.dropLast) else none

/-- What statements show if the next state has the number `n`; states are drawn in order. -/
def draw (n : Nat) : List Statement → Option Drawing
  | [] => some ⟨[], []⟩
  | .node label final m :: rest => do
    let tag ← tagIn n label
    let d ← draw (n + 1) rest
    if m = n then some ⟨(tag, final) :: d.states, d.arrows⟩ else none
  | .arrow source dest label :: rest => do
    let (key, target) ← symbolIn label
    let d ← draw n rest
    return ⟨d.states, ⟨source, dest, key, target⟩ :: d.arrows⟩

/-- Reads a drawing. -/
def decode (text : String) : Option Drawing := do
  let body ← pass "digraph \x7b\n" text.toList
  let statements ← readStatements body
  draw 0 statements

/-! ### Escaping -/

theorem escape_append (s t : List Char) : escape (s ++ t) = escape s ++ escape t := by
  induction s with
  | nil => rfl
  | cons c s ih =>
      simp only [List.cons_append, escape, ih]
      split <;> rfl

theorem escape_of_plain {s : List Char} (h : ∀ c ∈ s, ¬ (c = '\\' ∨ c = '"')) : escape s = s := by
  induction s with
  | nil => rfl
  | cons c s ih =>
      obtain ⟨hc, hs⟩ := List.forall_mem_cons.mp h
      rw [escape, if_neg hc, ih hs]

/-- Backslashes are escaped first, and then quotes. -/
theorem escape_eq_replace (s : List Char) :
    escape s = (s.flatMap fun c => if c = '\\' then ['\\', '\\'] else [c]).flatMap
      fun c => if c = '"' then ['\\', '"'] else [c] := by
  induction s with
  | nil => rfl
  | cons c s ih =>
      rw [escape, ih, List.flatMap_cons, List.flatMap_append]
      by_cases hb : c = '\\'
      · subst hb
        rfl
      · by_cases hq : c = '"'
        · subst hq
          rfl
        · simp only [hb, hq, or_self, ↓reduceIte, List.flatMap_cons, List.flatMap_nil,
            List.append_nil, List.singleton_append]

/-- **No quote in an escaped text closes it:** each has an odd number of backslashes before it, and
the text ends in an even number of them. -/
theorem escape_quotes (s : List Char) :
    (∀ u v, escape s = u ++ '"' :: v → Grammar.trailing u % 2 = 1) ∧
      Grammar.trailing (escape s) % 2 = 0 := by
  induction s using List.reverseRecOn with
  | nil => exact ⟨fun u v h => absurd h (by simp [escape]), rfl⟩
  | append_singleton s c ih =>
      obtain ⟨hquotes, heven⟩ := ih
      rw [escape_append]
      by_cases hc : c = '\\' ∨ c = '"'
      · have hodd : Grammar.trailing (escape s ++ ['\\']) % 2 = 1 := by
          rw [Grammar.trailing_backslash]
          omega
        rw [show escape s ++ escape [c] = (escape s ++ ['\\']) ++ [c] by simp [escape, hc]]
        refine ⟨fun u v hu => ?_, ?_⟩
        · rcases Grammar.eq_append_cons hu with ⟨rfl, -⟩ | ⟨w, hw⟩
          · exact hodd
          · rcases Grammar.eq_append_cons hw with ⟨-, hq⟩ | ⟨w, hw⟩
            · cases hq
            · exact hquotes u w hw
        · rcases hc with rfl | rfl
          · rw [Grammar.trailing_backslash]
            omega
          · rw [Grammar.trailing_other (by decide)]
      · rw [show escape s ++ escape [c] = escape s ++ [c] by simp [escape, hc]]
        rw [not_or] at hc
        refine ⟨fun u v hu => ?_, by rw [Grammar.trailing_other hc.1]⟩
        rcases Grammar.eq_append_cons hu with ⟨-, hq⟩ | ⟨w, hw⟩
        · exact absurd hq hc.2
        · exact hquotes u w hw

theorem quoted_cons {c : Char} (hc : ¬ (c = '\\' ∨ c = '"')) (text : List Char) :
    quoted (c :: text) = (quoted text).map fun r => (c :: r.1, r.2) := by
  rw [not_or] at hc
  rw [quoted.eq_def]
  split
  · cases ‹_›
  · next h => exact absurd (List.cons.inj h).1 hc.2
  · next h => exact absurd (List.cons.inj h).1 hc.1
  · next h =>
      obtain ⟨rfl, rfl⟩ := List.cons.inj h
      rfl

/-- **An escaped text in quotes is read to its end, and no further.** -/
theorem quoted_escape (s rest : List Char) :
    quoted (escape s ++ ("\"".toList ++ rest)) = some (s, rest) := by
  show quoted (escape s ++ '"' :: rest) = some (s, rest)
  induction s with
  | nil => rfl
  | cons c s ih =>
      rw [escape]
      split
      · show (quoted (escape s ++ '"' :: rest)).map _ = _
        rw [ih]
        rfl
      · next hc =>
          rw [List.cons_append, quoted_cons hc, ih]
          rfl

/-! ### The parts of a statement -/

theorem pass_append (word : String) (rest : List Char) :
    pass word (word.toList ++ rest) = some rest :=
  List.isPrefixOf?_eq_some_iff_append_eq.mpr rfl

theorem numeral_toDigits (n : Nat) {rest : List Char}
    (hrest : Grammar.Before (fun c => c.isDigit = false) rest) :
    numeral (Nat.toDigits 10 n ++ rest) = some (n, rest) := by
  have hdigits : ∀ c ∈ Nat.toDigits 10 n, c.isDigit = true := fun c hc =>
    Nat.isDigit_of_mem_toDigits (by decide) (by decide) hc
  have htake := Grammar.takeWhile_digits hdigits hrest
  have hdrop := Grammar.dropWhile_digits hdigits hrest
  simp only [numeral, htake, hdrop, if_neg Nat.toDigits_ne_nil, Grammar.value,
    Nat.ofDigitChars_ten_toDigits]

/-- What is written if a state is final. -/
def circled : Bool → String
  | true => ", shape=doublecircle"
  | false => ""

theorem circle_append (final : Bool) {rest : List Char} (hrest : rest.head? = some ']') :
    circle ((circled final).toList ++ rest) = (final, rest) := by
  unfold circle
  cases final with
  | true => rw [show circled true = ", shape=doublecircle" from rfl, pass_append]
  | false =>
      cases rest with
      | nil => cases hrest
      | cons c rest =>
          cases hrest
          rfl

/-! ### Statements -/

/-- What is written for a state. -/
def nodeChars (label : List Char) (final : Bool) (n : Nat) : List Char :=
  "node[label=\"".toList ++ (escape label ++ ("\"".toList ++
    ((circled final).toList ++ ("] id".toList ++ (Nat.toDigits 10 n ++ "\n".toList)))))

/-- What is written for a way from state to state. -/
def arrowChars (source dest : Nat) (label : List Char) : List Char :=
  "id".toList ++ (Nat.toDigits 10 source ++ (" -> id".toList ++ (Nat.toDigits 10 dest ++
    (" [label=\"".toList ++ (escape label ++ ("\"".toList ++ "]\n".toList))))))

theorem readNode_chars (label : List Char) (final : Bool) (n : Nat) (rest : List Char) :
    readNode (nodeChars label final n ++ rest) = some (.node label final n, rest) := by
  have hbreak : Grammar.Before (fun c => c.isDigit = false) ("\n".toList ++ rest) :=
    Grammar.before_of_head rfl
  unfold nodeChars readNode
  simp only [List.append_assoc, pass_append, quoted_escape, Option.bind_eq_bind, Option.bind_some]
  rw [circle_append final rfl]
  simp only [pass_append, numeral_toDigits n hbreak, Option.bind_some]
  rfl

theorem readArrow_chars (source dest : Nat) (label rest : List Char) :
    readArrow (arrowChars source dest label ++ rest) = some (.arrow source dest label, rest) := by
  have harrow : ∀ r, Grammar.Before (fun c => c.isDigit = false) (" -> id".toList ++ r) :=
    fun _ => Grammar.before_of_head rfl
  have hlabel : ∀ r, Grammar.Before (fun c => c.isDigit = false) (" [label=\"".toList ++ r) :=
    fun _ => Grammar.before_of_head rfl
  unfold arrowChars readArrow
  simp only [List.append_assoc, pass_append, quoted_escape, Option.bind_eq_bind, Option.bind_some,
    numeral_toDigits source (harrow _), numeral_toDigits dest (hlabel _)]
  rfl

/-- What is written for a statement. -/
def Statement.chars : Statement → List Char
  | node label final n => nodeChars label final n
  | arrow source dest label => arrowChars source dest label

/-- **A statement is read as it is written, whatever its label and whatever follows.** -/
theorem readStatement_chars (s : Statement) (rest : List Char) :
    readStatement (s.chars ++ rest) = some (s, rest) := by
  cases s with
  | node label final n =>
      rw [readStatement, Statement.chars, readNode_chars, Option.some_or]
  | arrow source dest label =>
      have hnode : readNode (arrowChars source dest label ++ rest) = none := rfl
      rw [readStatement, Statement.chars, hnode, Option.none_or, readArrow_chars]

theorem readStatements_cons (s : Statement) (rest : List Char) :
    readStatements (s.chars ++ rest) = (readStatements rest).map (s :: ·) := by
  have hread := readStatement_chars s rest
  -- the closing brace is no statement, and neither is the empty text
  have hclose : pass "\x7d\n" (s.chars ++ rest) ≠ some [] := fun h => by
    rw [← List.isPrefixOf?_eq_some_iff_append_eq.mp h] at hread
    cases hread
  have hlength : rest.length < (s.chars ++ rest).length := by
    rw [List.length_append]
    refine Nat.lt_add_of_pos_left (List.length_pos_of_ne_nil fun h => ?_)
    cases s <;> cases h
  rw [readStatements, if_neg hclose, hread]
  exact dif_pos hlength

/-- **All statements are read, and no others.** -/
theorem readStatements_chars (statements : List Statement) :
    readStatements (statements.flatMap Statement.chars ++ "\x7d\n".toList) = some statements := by
  induction statements with
  | nil =>
      rw [readStatements]
      exact if_pos rfl
  | cons s statements ih =>
      rw [List.flatMap_cons, List.append_assoc, readStatements_cons, ih]
      rfl

/-! ### What is drawn -/

theorem toList_toString (n : Nat) : (toString n).toList = Nat.toDigits 10 n := by
  rw [Nat.toString_eq_repr, Nat.repr, String.toList_ofList]

/-- Digits stand in a label as they are. -/
theorem escape_toDigits (n : Nat) : escape (Nat.toDigits 10 n) = Nat.toDigits 10 n := by
  refine escape_of_plain fun c hc => ?_
  have hdigit := Nat.isDigit_of_mem_toDigits (by decide) (by decide) hc
  rintro (rfl | rfl) <;> cases hdigit

/-- A key stands in a label as it is. -/
theorem escape_key (k : Key) : escape k.chars = k.chars := by
  rw [Key.chars, ← List.singleton_append, escape_append, escape_toDigits]
  cases k.phase <;> rfl

/-- The statement that draws a way from state to state. -/
def Arrow.statement (a : Arrow) : Statement :=
  .arrow a.source a.dest (a.key.chars ++ ("/".toList ++ (a.target.toList ++ "/".toList)))

/-- The statement that draws a state. -/
def nodeStatement (n : Nat) (s : State) : Statement :=
  .node (Nat.toDigits 10 n ++ (":".toList ++ s.tag.text.toList)) s.final n

/-- The statements that draw a state and the ways from it. -/
def stateStatements (n : Nat) (s : State) : List Statement :=
  nodeStatement n s :: (s.arrows n).map Arrow.statement

theorem nodeLine_toList (n : Nat) (s : State) :
    (s.nodeLine n).toList = (nodeStatement n s).chars := by
  have hcolon : escape ":".toList = ":".toList := rfl
  have hcircled : (if s.final then ", shape=doublecircle" else "") = circled s.final := by
    cases s.final <;> rfl
  rw [nodeStatement, Statement.chars]
  unfold nodeChars State.nodeLine
  simp only [hcircled, escape_append, escape_toDigits, String.toList_append, toList_toString,
    String.toList_ofList, List.append_assoc, hcolon]

theorem arrowLine_toList (n : Nat) (e : Edge Guard) (dest : Nat) :
    (State.arrowLine n e dest).toList =
      (Arrow.statement ⟨n, dest, e.key, e.target.source⟩).chars := by
  have hlast : "/\"]\n".toList = escape "/".toList ++ ("\"".toList ++ "]\n".toList) := rfl
  have hslash : escape "/".toList = "/".toList := rfl
  rw [Arrow.statement, Statement.chars]
  unfold arrowChars State.arrowLine
  simp only [Key.text, escape_append,
    escape_key, String.toList_append, toList_toString, String.toList_ofList, List.append_assoc,
    hlast, hslash]

theorem lines_toList (n : Nat) (s : State) :
    (s.lines n).flatMap String.toList = (stateStatements n s).flatMap Statement.chars := by
  simp only [State.lines, stateStatements, State.arrows, List.flatMap_cons, nodeLine_toList,
    List.map_flatMap, List.flatMap_assoc, List.map_map, List.flatMap_map, arrowLine_toList,
    Function.comp_def]

theorem graphviz_toList (A : Automaton) :
    A.graphviz.toList = "digraph \x7b\n".toList ++
      ((A.states.toList.zipIdx.flatMap fun p => stateStatements p.2 p.1).flatMap Statement.chars ++
        "\x7d\n".toList) := by
  simp only [Automaton.graphviz, String.toList_append, String.toList_join,
    List.mapIdx_eq_zipIdx_map, List.append_assoc, ← List.flatMap_def, List.flatMap_assoc,
    lines_toList]

/-! ### What is shown -/

theorem tagIn_label (n : Nat) (tag : String) :
    tagIn n (Nat.toDigits 10 n ++ (":".toList ++ tag.toList)) = some tag := by
  have hcolon : Grammar.Before (fun c => c.isDigit = false) (":".toList ++ tag.toList) :=
    Grammar.before_of_head rfl
  simp only [tagIn, numeral_toDigits n hcolon, pass_append, Option.bind_eq_bind, Option.bind_some,
    if_pos, String.ofList_toList]

theorem symbolIn_label (key : Key) (target : String) :
    symbolIn (key.chars ++ ("/".toList ++ (target.toList ++ "/".toList))) = some (key, target) := by
  have hslash : Grammar.Before (fun c => c.isDigit = false)
      ("/".toList ++ (target.toList ++ "/".toList)) := Grammar.before_of_head rfl
  have hlast : (target.toList ++ "/".toList).getLast? = some '/' := List.getLast?_concat
  have hdrop : (target.toList ++ "/".toList).dropLast = target.toList := List.dropLast_concat
  simp only [Key.chars, List.cons_append, symbolIn, Phase.ofLetter?_letter,
    numeral_toDigits key.slot hslash, pass_append, Option.bind_eq_bind, Option.bind_some, hlast,
    hdrop, if_pos, String.ofList_toList]

theorem draw_arrows (n : Nat) (arrows : List Arrow) (rest : List Statement) :
    draw n (arrows.map Arrow.statement ++ rest) =
      (draw n rest).map fun d => ⟨d.states, arrows ++ d.arrows⟩ := by
  induction arrows with
  | nil => exact Option.map_id'.symm
  | cons a arrows ih =>
      rw [List.map_cons, List.cons_append, Arrow.statement, draw, symbolIn_label, ih]
      cases draw n rest <;> rfl

theorem draw_state (n : Nat) (s : State) (rest : List Statement) :
    draw n (stateStatements n s ++ rest) = (draw (n + 1) rest).map fun d =>
      ⟨(s.tag.text, s.final) :: d.states, s.arrows n ++ d.arrows⟩ := by
  rw [stateStatements, List.cons_append, nodeStatement, draw, tagIn_label, draw_arrows,
    Option.bind_eq_bind, Option.bind_some]
  cases draw (n + 1) rest with
  | none => rfl
  | some d => exact if_pos rfl

theorem draw_states (n : Nat) (states : List State) :
    draw n ((states.zipIdx n).flatMap fun p => stateStatements p.2 p.1) =
      some ⟨states.map fun s => (s.tag.text, s.final),
        (states.zipIdx n).flatMap fun p => p.1.arrows p.2⟩ := by
  induction states generalizing n with
  | nil => rfl
  | cons s states ih =>
      rw [List.zipIdx_cons, List.flatMap_cons, draw_state, ih]
      rfl

/-- **A drawing shows what it is to show.** -/
theorem decode_graphviz (A : Automaton) : decode A.graphviz = some A.drawing := by
  rw [decode, graphviz_toList, pass_append, Option.bind_eq_bind, Option.bind_some,
    readStatements_chars, Option.bind_eq_bind, Option.bind_some, draw_states]
  rw [Automaton.drawing, List.mapIdx_eq_zipIdx_map, List.flatMap_def]

/-- **Drawings are faithful, and nothing can be injected.**  From the drawing of any automaton its
reader finds how many states there are, the texts of their tags and which of them are final, and
all ways between them, in their order, with their keys and targets; so automata with the same
drawing agree in all of these.  Whatever text a label is made of, the quotes in it are escaped, and
it is read up to the quote that closes it, whatever comes then. -/
theorem graphviz_faithful :
    (∀ A : Automaton, decode A.graphviz = some A.drawing ∧ A.drawing.states.length = A.size) ∧
    (∀ A B : Automaton, A.graphviz = B.graphviz → A.drawing = B.drawing) ∧
    ∀ s : List Char,
      (∀ u v, escape s = u ++ '"' :: v → Grammar.trailing u % 2 = 1) ∧
      Grammar.trailing (escape s) % 2 = 0 ∧
      ∀ rest, quoted (escape s ++ '"' :: rest) = some (s, rest) := by
  refine ⟨fun A => ⟨decode_graphviz A, ?_⟩, fun A B h => ?_, fun s => ?_⟩
  · rw [Automaton.drawing, List.length_map, Array.length_toList, Automaton.size]
  · have hB := decode_graphviz B
    rw [← h, decode_graphviz A] at hB
    exact Option.some.inj hB
  · obtain ⟨hquotes, heven⟩ := escape_quotes s
    exact ⟨hquotes, heven, quoted_escape s⟩

/-- A group's name that looks like the end of its statement, and like another one. -/
def misleading : Automaton where
  states := #[⟨.named "x\"] id0\nid0 -> id0 [label=\"d1/\\", .empty, true⟩]
  groups := 0
  guards := []

example : (decode misleading.graphviz).map (·.arrows) = some [] := by
  decide +kernel

end Graphviz

end Multitouch
