import Multitouch.Grammar.Token

/-!
# Reading a pattern

A pattern is a sequence of expressions; an expression is one item or several with bars between
them; an item is an action or a group, which is a sequence in parentheses with a repetition.

The reader keeps what it has read of every sequence that is still open: of the innermost in the
`Progress` itself, of those around it in a stack of `Frame`s, one for each open parenthesis.  A
step reads one item, or opens or closes a group, so that what is left gets shorter with every
step.  Whether an item is due is seen from the alternatives read so far: there are some exactly
between a bar and the item after it.

The states an expression is unrolled to are counted as soon as the expression is complete at the
outermost level, so that no pattern is read far beyond the limit.
-/

namespace Multitouch.Grammar

/-- A sequence in which a group has been opened. -/
structure Frame where
  /-- The text from the group's parenthesis on. -/
  opening : List Char
  /-- The complete members of the sequence, the latest first. -/
  members : List Expression
  /-- The alternatives before the group, the latest first. -/
  alternatives : List Expression

/-- How far the reading of a pattern has come. -/
structure Progress where
  /-- The complete members of the innermost open sequence, the latest first. -/
  members : List Expression := []
  /-- The alternatives of the expression being read, the latest first. -/
  alternatives : List Expression := []
  /-- The sequences around, the innermost first. -/
  frames : List Frame := []
  /-- The states counted so far; three are needed for the empty pattern. -/
  states : Nat := 3
  /-- The text from the outermost expression being read on. -/
  start : List Char := []

namespace Progress

/-- The expression that ends with `item`. -/
def close (p : Progress) (item : Expression) : Expression :=
  if p.alternatives = [] then item else .options (item :: p.alternatives).reverse

/-- Adds a complete expression to the innermost sequence; at the outermost level its states are
counted. -/
def add (p : Progress) (e : Expression) : Except Fault Progress :=
  let added := { p with members := e :: p.members, alternatives := [] }
  if p.frames = [] then
    if p.states + e.bound + 1 ≤ maxStates then
      .ok { added with states := p.states + e.bound + 1 }
    else .error ⟨.tooManyStates, p.start⟩
  else .ok added

/-- Takes an item that has been read: a bar after it asks for another alternative, anything else
completes the expression. -/
def take (p : Progress) (item : Expression) : List Char → Reading Progress
  | '|' :: rest => .ok ({ p with alternatives := item :: p.alternatives }, rest)
  | rest =>
    match p.add (p.close item) with
    | .error e => .error e
    | .ok p => .ok (p, rest)

/-- Opens the group whose parenthesis is the first character of `opening`. -/
def openGroup (p : Progress) (opening : List Char) : Except Fault Progress :=
  if p.frames.length = maxNesting then .error ⟨.nestingTooDeep, opening⟩
  else .ok { p with
    members := []
    alternatives := []
    frames := ⟨opening, p.members, p.alternatives⟩ :: p.frames }

/-- Closes the innermost group, whose closing parenthesis is the first character of `closing`
and comes before `rest`. -/
def closeGroup (p : Progress) (closing rest : List Char) : Reading Progress :=
  match p.frames with
  | [] => .error ⟨.strayClose, closing⟩
  | frame :: frames =>
    match repetition rest with
    | .error e => .error e
    | .ok (r, rest) =>
      { p with members := frame.members, alternatives := frame.alternatives, frames }.take
        (.group none p.members.reverse r) rest

/-- Notes where an expression of the outermost level starts. -/
def begin (p : Progress) (text : List Char) : Progress :=
  if p.frames = [] ∧ p.alternatives = [] then { p with start := text } else p

/-- Reads on from the character `c`, which is followed by `rest`. -/
def step (p : Progress) (c : Char) (rest : List Char) : Reading Progress :=
  if c = ')' ∧ p.alternatives = [] then p.closeGroup (c :: rest) rest
  else if c = '(' then
    match (p.begin (c :: rest)).openGroup (c :: rest) with
    | .error e => .error e
    | .ok p => .ok (p, rest)
  else
    match action (c :: rest) with
    | .error e => .error e
    | .ok (a, left) => (p.begin (c :: rest)).take (.action a) left

/-- What has been read when no text is left. -/
def finish (p : Progress) : Except Fault (List Expression) :=
  if p.alternatives ≠ [] then .error ⟨.missingItem, []⟩
  else match p.frames with
    | frame :: _ => .error ⟨.openGroup, frame.opening⟩
    | [] => .ok p.members.reverse

theorem take_length {p q : Progress} {item : Expression} {text rest : List Char}
    (h : p.take item text = .ok (q, rest)) : rest.length ≤ text.length := by
  unfold take at h
  split at h
  · cases h; simp
  · split at h
    · cases h
    · cases h; exact Nat.le_refl _

/-- Every step uses up some of the text. -/
theorem step_length {p q : Progress} {c : Char} {text rest : List Char}
    (h : p.step c text = .ok (q, rest)) : rest.length < (c :: text).length := by
  unfold step at h
  split at h
  · unfold closeGroup at h
    split at h
    · cases h
    · split at h
      · cases h
      · next hr =>
        have h₁ := repetition_length hr
        have h₂ := take_length h
        simp; omega
  · split at h
    · split at h
      · cases h
      · cases h; simp
    · split at h
      · cases h
      · next ha =>
        have h₁ := action_length ha
        have h₂ := take_length h
        omega

/-- Reads all that is left. -/
def run (p : Progress) : List Char → Except Fault (List Expression)
  | [] => p.finish
  | c :: text =>
    match _h : p.step c text with
    | .error e => .error e
    | .ok (q, rest) => q.run rest
termination_by text => text.length
decreasing_by exact step_length _h

end Progress

/-- How many bytes a text is encoded in. -/
def byteLength (text : List Char) : Nat :=
  text.foldl (fun n c => n + c.utf8Size) 0

/-- Reads a pattern from its characters. -/
def read (text : List Char) : Except Fault (List Expression) :=
  ({} : Progress).run text

end Multitouch.Grammar

namespace Multitouch

/-- Reads a pattern.  A fault is placed by the bytes before it. -/
def Expression.read (pattern : String) : Except PatternError (List Expression) :=
  match Grammar.read pattern.toList with
  | .ok es => .ok es
  | .error e =>
    .error ⟨e.cause, Grammar.byteLength pattern.toList - Grammar.byteLength e.rest⟩

end Multitouch
