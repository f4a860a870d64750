import Mathlib.Data.List.Induction
import Multitouch.Proofs.Grammar.Sound

/-!
# Places in a pattern

Parentheses count outside of targets only, and slashes decide what is a target.  A scan along the
characters tells for every place in a text whether it is in a target, and in how many groups
(`Place.after`).  It is not asked whether the text is a pattern.

What the rules write opens as many groups as it closes, and closes none that it has not opened, so
that a scan goes across it and ends where it started (`Sequence.balanced`).
-/

namespace Multitouch.Grammar

/-- Where in a text a place is. -/
inductive Place where
  /-- Outside of targets, in so many groups. -/
  | outside (depth : Nat)
  /-- In a target; if `escaped`, the next character does not close it. -/
  | target (depth : Nat) (escaped : Bool)
  deriving DecidableEq, Repr

namespace Place

/-- The place after a character; none if a group is closed outside of all groups. -/
def next : Place → Char → Option Place
  | outside depth, '(' => some (outside (depth + 1))
  | outside 0, ')' => none
  | outside (depth + 1), ')' => some (outside depth)
  | outside depth, '/' => some (target depth false)
  | outside depth, _ => some (outside depth)
  | target depth true, _ => some (target depth false)
  | target depth false, '/' => some (outside depth)
  | target depth false, c => some (target depth (c == '\\'))

/-- The place after a text. -/
def after (p : Place) (text : List Char) : Option Place :=
  text.foldlM next p

theorem after_append (p : Place) (s t : List Char) :
    p.after (s ++ t) = (p.after s).bind (·.after t) :=
  List.foldlM_append

theorem after_concat (p : Place) (s : List Char) (c : Char) :
    p.after (s ++ [c]) = (p.after s).bind (·.next c) := by
  rw [after_append]
  refine congrArg (Option.bind _) (funext fun q => ?_)
  show (q.next c).bind some = q.next c
  cases q.next c <;> rfl

theorem next_of_plain {c : Char} (h : c ∉ ['(', ')', '/']) (depth : Nat) :
    (outside depth).next c = some (outside depth) := by
  simp only [List.mem_cons, List.not_mem_nil, or_false, not_or] at h
  unfold next
  split <;> simp_all

theorem next_target (depth : Nat) (escaped : Bool) {c : Char} (h : c = '/' → escaped = true) :
    (target depth escaped).next c = some (target depth (!escaped && c == '\\')) := by
  unfold next
  split <;> simp_all

/-- In a target it matters whether the backslashes before a place are even in number. -/
theorem after_target {depth : Nat} {t : List Char}
    (h : ∀ u v, t = u ++ '/' :: v → trailing u % 2 = 1) :
    (target depth false).after t = some (target depth (decide (trailing t % 2 = 1))) := by
  induction t using List.reverseRecOn with
  | nil => rfl
  | append_singleton t c ih =>
      have ht : ∀ u v, t = u ++ '/' :: v → trailing u % 2 = 1 := fun u v hu =>
        h u (v ++ [c]) (by rw [hu, List.append_assoc, List.cons_append])
      have hslash : c = '/' → decide (trailing t % 2 = 1) = true := by
        rintro rfl
        exact decide_eq_true (h t [] rfl)
      rw [after_concat, ih ht, Option.bind_some, next_target depth _ hslash]
      congr 2
      by_cases hc : c = '\\'
      · subst hc
        rw [trailing_backslash]
        rcases Nat.mod_two_eq_zero_or_one (trailing t) with hparity | hparity <;>
          simp [Nat.add_mod, hparity]
      · rw [trailing_other hc]
        simp [hc]

end Place

/-- The text closes the groups that it opens, and no other, and the same holds of its targets. -/
def Balanced (text : List Char) : Prop :=
  ∀ depth, (Place.outside depth).after text = some (.outside depth)

variable {s t : List Char}

theorem balanced_nil : Balanced [] := fun _ => rfl

theorem Balanced.append (hs : Balanced s) (ht : Balanced t) : Balanced (s ++ t) := by
  intro depth
  rw [Place.after_append, hs, Option.bind_some, ht]

theorem balanced_of_plain (h : ∀ c ∈ s, c ∉ ['(', ')', '/']) : Balanced s := by
  intro depth
  induction s with
  | nil => rfl
  | cons c s ih =>
      obtain ⟨hc, hs⟩ := List.forall_mem_cons.mp h
      rw [← List.singleton_append, Place.after_append]
      show ((Place.outside depth).next c >>= some).bind _ = _
      rw [Place.next_of_plain hc]
      exact ih hs

theorem balanced_singleton {c : Char} (h : c ∉ ['(', ')', '/']) : Balanced [c] :=
  balanced_of_plain (List.forall_mem_singleton.mpr h)

theorem Balanced.group (hs : Balanced s) : Balanced ('(' :: (s ++ [')'])) := by
  intro depth
  rw [← List.singleton_append, Place.after_append]
  show (Place.outside (depth + 1)).after (s ++ [')']) = _
  rw [Place.after_append, hs]
  rfl

theorem Closed.balanced (hs : Closed s) : Balanced ('/' :: (s ++ ['/'])) := by
  intro depth
  rw [← List.singleton_append, Place.after_append]
  show (Place.target depth false).after (s ++ ['/']) = _
  rw [Place.after_append, Place.after_target hs.slash]
  have heven := hs.even
  simp [heven]
  rfl

/-! ### What the rules write is balanced -/

variable {P : List Char → Prop}

theorem Numeral.balanced {n : Nat} (h : Numeral P s n) : Balanced s := by
  refine balanced_of_plain fun c hc hmem => ?_
  have hdigit := h.isDigit c hc
  simp only [List.mem_cons, List.not_mem_nil, or_false] at hmem
  rcases hmem with rfl | rfl | rfl <;> cases hdigit

theorem Repeats.balanced {r : Repetition} (h : Repeats P s r) : Balanced s := by
  cases h with
  | once => exact balanced_nil
  | atLeastOnce => exact balanced_singleton (by decide)
  | any => exact balanced_singleton (by decide)
  | optional => exact balanced_singleton (by decide)
  | exactly hn =>
      have hopen : Balanced ['{'] := balanced_singleton (by decide)
      have hclose : Balanced ['}'] := balanced_singleton (by decide)
      exact hopen.append (hn.balanced.append hclose)
  | between hm hn _ =>
      have hopen : Balanced ['{'] := balanced_singleton (by decide)
      have hcomma : Balanced [','] := balanced_singleton (by decide)
      have hclose : Balanced ['}'] := balanced_singleton (by decide)
      exact hopen.append (hm.balanced.append (hcomma.append (hn.balanced.append hclose)))

theorem Targets.balanced {text : String} (h : Targets s text) : Balanced s := by
  cases h with
  | any => exact balanced_nil
  | slashes ht => exact ht.balanced

theorem balanced_letter (phase : Phase) : Balanced [phase.letter] := by
  cases phase <;> exact balanced_singleton (by decide)

theorem Acts.balanced {a : Action} (h : Acts P s a) : Balanced s := by
  obtain ⟨hn, -, ht, hr⟩ := h
  exact (balanced_letter _).append (hn.balanced.append (ht.balanced.append hr.balanced))

mutual

theorem Item.balanced : ∀ {s : List Char} {e : Expression}, Item P s e → Balanced s
  | _, _, .action ha => ha.balanced
  | _, _, .group (s := s) (m := m) hs hr => by
      have hgroup := (Sequence.balanced hs).group.append hr.balanced
      simpa using hgroup

theorem Alternatives.balanced : ∀ {s : List Char} {es : List Expression},
    Alternatives P s es → Balanced s
  | _, _, .one hi => hi.balanced
  | _, _, .more hi ha => by
      have hbar : Balanced ['|'] := balanced_singleton (by decide)
      exact hi.balanced.append (hbar.append (Alternatives.balanced ha))

/-- **What is written for a sequence is balanced.** -/
theorem Sequence.balanced : ∀ {s : List Char} {es : List Expression},
    Sequence P s es → Balanced s
  | _, _, .nil => balanced_nil
  | _, _, .cons ha hs => (Alternatives.balanced ha).append (Sequence.balanced hs)

end

end Multitouch.Grammar
