/-!
# Touches, keys and symbols

A contact with the surface goes through three phases: it is pressed, it moves, it is released.
A gesture speaks of its own small contact numbers, the *slots*, so what an automaton reads is a
*symbol*: a phase on a slot, the *key*, and the name of the element under the contact, the
*target*.  What the platform reports is an *event*, which carries the platform's own identifier
of the contact instead of a slot.

Keys are ordered by phase and then by slot.
-/

namespace Multitouch

/-- The phase of a contact. -/
inductive Phase where
  | press
  | move
  | release
  deriving DecidableEq, Repr

namespace Phase

/-- The place of a phase in the life of a contact. -/
def rank : Phase → Nat
  | press => 0
  | move => 1
  | release => 2

theorem rank_injective {p q : Phase} (h : p.rank = q.rank) : p = q := by
  cases p <;> cases q <;> simp_all [rank]

/-- The letter that writes a phase: down, move, up. -/
def letter : Phase → Char
  | press => 'd'
  | move => 'm'
  | release => 'u'

/-- The phase that a letter writes. -/
def ofLetter? : Char → Option Phase
  | 'd' => some press
  | 'm' => some move
  | 'u' => some release
  | _ => none

/-- The phase that a platform's event name stands for; a contact that leaves the surface or is
taken over by the platform is released. -/
def ofEventName? : String → Option Phase
  | "touchstart" => some press
  | "touchmove" => some move
  | "touchend" => some release
  | "touchcancel" => some release
  | "touchleave" => some release
  | _ => none

@[simp] theorem ofLetter?_letter (p : Phase) : ofLetter? p.letter = some p := by
  cases p <;> rfl

theorem letter_injective {p q : Phase} (h : p.letter = q.letter) : p = q :=
  Option.some.inj (by rw [← ofLetter?_letter p, h, ofLetter?_letter])

/-- Only a phase's own letter is read as that phase. -/
theorem eq_letter_of_ofLetter? {c : Char} {p : Phase} (h : ofLetter? c = some p) :
    c = p.letter := by
  unfold ofLetter? at h
  split at h <;> cases h <;> rfl

end Phase

/-- What a transition looks for beside the target: a phase on a slot. -/
structure Key where
  phase : Phase
  slot : Nat
  deriving DecidableEq, Repr

namespace Key

/-- Keys are ordered by phase, then by slot. -/
protected def lt (a b : Key) : Prop :=
  a.phase.rank < b.phase.rank ∨ a.phase = b.phase ∧ a.slot < b.slot

instance : LT Key := ⟨Key.lt⟩

theorem lt_def {a b : Key} :
    a < b ↔ a.phase.rank < b.phase.rank ∨ a.phase = b.phase ∧ a.slot < b.slot := Iff.rfl

instance (a b : Key) : Decidable (a < b) :=
  inferInstanceAs (Decidable (a.phase.rank < b.phase.rank ∨ a.phase = b.phase ∧ a.slot < b.slot))

theorem lt_irrefl (a : Key) : ¬ a < a := by
  simp [lt_def]

theorem lt_trans {a b c : Key} (h₁ : a < b) (h₂ : b < c) : a < c := by
  simp only [lt_def] at *
  rcases h₁ with h₁ | ⟨e₁, h₁⟩ <;> rcases h₂ with h₂ | ⟨e₂, h₂⟩
  · exact .inl (by omega)
  · exact .inl (e₂ ▸ h₁)
  · exact .inl (e₁ ▸ h₂)
  · exact .inr ⟨e₁.trans e₂, by omega⟩

/-- Of two different keys one comes before the other. -/
theorem lt_or_lt_of_ne {a b : Key} (h : a ≠ b) : a < b ∨ b < a := by
  simp only [lt_def]
  rcases Nat.lt_trichotomy a.phase.rank b.phase.rank with hp | hp | hp
  · exact .inl (.inl hp)
  · have hp := Phase.rank_injective hp
    rcases Nat.lt_trichotomy a.slot b.slot with hs | hs | hs
    · exact .inl (.inr ⟨hp, hs⟩)
    · exact absurd (by cases a; cases b; simp_all) h
    · exact .inr (.inr ⟨hp.symm, hs⟩)
  · exact .inr (.inl hp)

instance : Std.Irrefl (α := Key) (· < ·) := ⟨lt_irrefl⟩

instance : Trans (α := Key) (· < ·) (· < ·) (· < ·) := ⟨lt_trans⟩

instance : Std.Trichotomous (α := Key) (· < ·) :=
  ⟨fun _ _ h h' => Classical.byContradiction fun hne => (lt_or_lt_of_ne hne).elim h h'⟩

/-- A key as an action writes it: the phase's letter and the slot in decimal. -/
def chars (k : Key) : List Char :=
  k.phase.letter :: Nat.toDigits 10 k.slot

/-- A key's text. -/
def text (k : Key) : String :=
  String.ofList k.chars

end Key

/-- One observed step of a contact, as an automaton reads it. -/
structure Symbol where
  key : Key
  target : String
  deriving DecidableEq, Repr

/-- One step of a contact as the platform reports it. -/
structure Event where
  phase : Phase
  touch : Nat
  target : String
  deriving DecidableEq, Repr

/-- The symbol an event is to an observer that knows its contact by `slot`. -/
def Event.symbol (e : Event) (slot : Nat) : Symbol :=
  ⟨⟨e.phase, slot⟩, e.target⟩

end Multitouch
