import Multitouch.Proofs.Grammar.Tokens

/-!
# The rules are unambiguous

A text is written by the rules in one way only, also if it goes beyond the limits: two parts that
are written at the same place, and are each followed by something that may follow such a part,
stand for the same and leave the same (`item_unique`, `alternatives_unique`, `sequence_unique`).
For numbers this is so because both take all the digits there are, for targets because a reader
finds both; from actions on the induction is on how the first of the two parts is written.
-/

namespace Multitouch.Grammar

/-! ### What parts begin with and what follows them -/

/-- The characters that an expression may be followed by. -/
def Ends (text : List Char) : Prop :=
  Before (fun c => c ∈ [')', '(', 'd', 'm', 'u']) text

/-- A sequence is followed by the end of its group or of the text. -/
def Closes (text : List Char) : Prop :=
  Before (fun c => c = ')') text

variable {P : List Char → Prop} {s s' t t' : List Char}

theorem Ends.follows (h : Ends t) : Follows t :=
  h.imp fun _ hc => List.mem_cons_of_mem _ hc

theorem Closes.ends (h : Closes t) : Ends t :=
  h.imp fun _ hc => hc ▸ List.mem_cons_self

theorem Item.head {e : Expression} (h : Item P s e) : ∃ c rest, s = c :: rest ∧
    c ∈ ['(', 'd', 'm', 'u'] := by
  cases h with
  | action ha =>
      cases ha with
      | @mk phase => cases phase <;> exact ⟨_, _, rfl, by decide⟩
  | group => exact ⟨_, _, rfl, by decide⟩

theorem Alternatives.head {es : List Expression} (h : Alternatives P s es) :
    ∃ c rest, s = c :: rest ∧ c ∈ ['(', 'd', 'm', 'u'] := by
  cases h with
  | one he => exact he.head
  | more he =>
      obtain ⟨c, rest, rfl, hc⟩ := he.head
      exact ⟨c, _, rfl, hc⟩

theorem Alternatives.ends {es : List Expression} (h : Alternatives P s es) (t : List Char) :
    Ends (s ++ t) := by
  obtain ⟨c, rest, rfl, hc⟩ := h.head
  exact before_of_head (List.mem_cons_of_mem _ hc)

theorem Sequence.ends {es : List Expression} (h : Sequence P s es) (ht : Ends t) :
    Ends (s ++ t) := by
  cases h with
  | nil => exact ht
  | cons ha =>
      rw [List.append_assoc]
      exact ha.ends _

/-- What closes a sequence is not the beginning of another expression. -/
theorem Closes.not_alternatives {es : List Expression} (ht : Closes t) (h : Alternatives P s es)
    (u : List Char) : t ≠ s ++ u := by
  rintro rfl
  obtain ⟨c, rest, rfl, hc⟩ := h.head
  obtain rfl : c = ')' := ht c rfl
  exact absurd hc (by decide)

theorem Ends.ne_bar (ht : Ends t) (u : List Char) : t ≠ '|' :: u := by
  rintro rfl
  exact absurd (ht '|' rfl) (by decide)

/-! ### One way to write a text -/

theorem Numeral.unique {n n' : Nat} (h : Numeral P s n) (h' : Numeral P s' n')
    (he : s ++ t = s' ++ t') (ht : Before (fun c => c.isDigit = false) t)
    (ht' : Before (fun c => c.isDigit = false) t') : n = n' ∧ t = t' := by
  have htake := takeWhile_digits h.isDigit ht
  rw [he, takeWhile_digits h'.isDigit ht'] at htake
  subst htake
  exact ⟨h.value_eq.symm.trans h'.value_eq, List.append_cancel_left he⟩

theorem Targets.unique {x x' : String} (h : Targets s x) (h' : Targets s' x')
    (he : s ++ t = s' ++ t') (ht : Before (fun c => c ≠ '/') t)
    (ht' : Before (fun c => c ≠ '/') t') : x = x' ∧ t = t' := by
  have hread := target_append h ht
  rw [he, target_append h' ht'] at hread
  cases hread
  exact ⟨rfl, rfl⟩

/-- What is written in braces for a repetition: the text after the opening brace. -/
inductive Braces (P : List Char → Prop) : List Char → Repetition → Prop where
  | exactly {digits : List Char} {n : Nat} :
      Numeral P digits n → Braces P (digits ++ ['}']) (.exactly n)
  | between {s t : List Char} {m n : Nat} :
      Numeral P s m → Numeral P t n → Braces P (s ++ ',' :: (t ++ ['}'])) ⟨m, some n⟩

theorem Braces.unique {r r' : Repetition} (h : Braces P s r) (h' : Braces P s' r')
    (he : s ++ t = s' ++ t') : r = r' ∧ t = t' := by
  have hclose : ∀ u, Before (fun c => c.isDigit = false) ('}' :: u) := fun _ => before_of_head rfl
  have hcomma : ∀ u, Before (fun c => c.isDigit = false) (',' :: u) := fun _ => before_of_head rfl
  cases h with
  | exactly hn =>
      rw [List.append_assoc] at he
      cases h' with
      | exactly hn' =>
          rw [List.append_assoc] at he
          obtain ⟨rfl, hrest⟩ := hn.unique hn' he (hclose _) (hclose _)
          exact ⟨rfl, (List.cons.inj hrest).2⟩
      | between hm' hn' =>
          rw [List.append_assoc] at he
          exact absurd (List.cons.inj (hn.unique hm' he (hclose _) (hcomma _)).2).1 (by decide)
  | between hm hn =>
      rw [List.append_assoc] at he
      cases h' with
      | exactly hn' =>
          rw [List.append_assoc] at he
          exact absurd (List.cons.inj (hm.unique hn' he (hcomma _) (hclose _)).2).1 (by decide)
      | between hm' hn' =>
          rw [List.append_assoc] at he
          obtain ⟨rfl, hrest⟩ := hm.unique hm' he (hcomma _) (hcomma _)
          simp only [List.cons_append, List.append_assoc] at hrest
          obtain ⟨rfl, hrest⟩ := hn.unique hn' (List.cons.inj hrest).2 (hclose _) (hclose _)
          exact ⟨rfl, (List.cons.inj hrest).2⟩

/-- A repetition is in braces, or else it is a sign that a reader finds. -/
theorem Repeats.braces_or_sign {r : Repetition} (h : Repeats P s r) :
    (∃ u, s = '{' :: u ∧ Braces P u r) ∨ s ∈ [[], ['+'], ['*'], ['?']] ∧ Repeats Counted s r := by
  cases h with
  | once => exact .inr ⟨by simp, .once⟩
  | atLeastOnce => exact .inr ⟨by simp, .atLeastOnce⟩
  | any => exact .inr ⟨by simp, .any⟩
  | optional => exact .inr ⟨by simp, .optional⟩
  | exactly hn => exact .inl ⟨_, rfl, .exactly hn⟩
  | between hm hn _ => exact .inl ⟨_, rfl, .between hm hn⟩

/-- Neither a sign nor what may follow an item opens a brace. -/
theorem ne_brace_of_sign (hs : s ∈ [[], ['+'], ['*'], ['?']]) (ht : Follows t) (u : List Char) :
    s ++ t ≠ '{' :: u := by
  intro he
  simp only [List.mem_cons, List.not_mem_nil, or_false] at hs
  rcases hs with rfl | rfl | rfl | rfl
  · have hhead : t.head? = some '{' := congrArg List.head? he
    exact absurd (ht '{' hhead) (by decide)
  · exact absurd (List.cons.inj he).1 (by decide)
  · exact absurd (List.cons.inj he).1 (by decide)
  · exact absurd (List.cons.inj he).1 (by decide)

theorem Repeats.unique {r r' : Repetition} (h : Repeats P s r) (h' : Repeats P s' r')
    (he : s ++ t = s' ++ t') (ht : Follows t) (ht' : Follows t') : r = r' ∧ t = t' := by
  rcases h.braces_or_sign with ⟨u, rfl, hb⟩ | ⟨hsign, hr⟩ <;>
    rcases h'.braces_or_sign with ⟨u', rfl, hb'⟩ | ⟨hsign', hr'⟩
  · exact hb.unique hb' (List.cons.inj he).2
  · exact absurd he.symm (ne_brace_of_sign hsign' ht' _)
  · exact absurd he (ne_brace_of_sign hsign ht _)
  · have hread := repetition_append hr ht.repetition
    rw [he, repetition_append hr' ht'.repetition] at hread
    cases hread
    exact ⟨rfl, rfl⟩

theorem Acts.unique {a a' : Action} (h : Acts P s a) (h' : Acts P s' a')
    (he : s ++ t = s' ++ t') (ht : Follows t) (ht' : Follows t') : a = a' ∧ t = t' := by
  obtain ⟨hn, -, hx, hr⟩ := h
  obtain ⟨hn', -, hx', hr'⟩ := h'
  have hafter := hr.before ht
  have hafter' := hr'.before ht'
  simp only [List.cons_append, List.append_assoc] at he
  obtain ⟨hletter, he⟩ := List.cons.inj he
  obtain ⟨rfl, he⟩ := hn.unique hn' he (hx.before hafter) (hx'.before hafter')
  obtain ⟨rfl, he⟩ := hx.unique hx' he (hafter.imp fun _ hc => hc.1) (hafter'.imp fun _ hc => hc.1)
  obtain ⟨rfl, rfl⟩ := hr.unique hr' he ht ht'
  rw [Phase.letter_injective hletter]
  exact ⟨rfl, rfl⟩

/-- An action does not begin with a parenthesis. -/
theorem Acts.not_open {a : Action} (h : Acts P s a) (u : List Char) : s ++ t ≠ '(' :: u := by
  cases h with
  | @mk phase => cases phase <;> exact fun he => absurd (List.cons.inj he).1 (by decide)

mutual

theorem item_unique : ∀ {s s' t t' : List Char} {e e' : Expression}, Item P s e → Item P s' e' →
    s ++ t = s' ++ t' → Follows t → Follows t' → e = e' ∧ t = t'
  | _, _, _, _, _, _, .action ha, .action ha', he, ht, ht' => by
      obtain ⟨rfl, rfl⟩ := ha.unique ha' he ht ht'
      exact ⟨rfl, rfl⟩
  | _, _, _, _, _, _, .action ha, .group _ _, he, _, _ => absurd he (ha.not_open _)
  | _, _, _, _, _, _, .group _ _, .action ha, he, _, _ => absurd he.symm (ha.not_open _)
  | _, _, _, _, _, _, .group hs hm, .group hs' hm', he, ht, ht' => by
      simp only [List.cons_append, List.append_assoc] at he
      obtain ⟨rfl, hrest⟩ := sequence_unique hs hs' (List.cons.inj he).2 (before_of_head rfl)
        (before_of_head rfl)
      obtain ⟨rfl, rfl⟩ := hm.unique hm' (List.cons.inj hrest).2 ht ht'
      exact ⟨rfl, rfl⟩

theorem alternatives_unique : ∀ {s s' t t' : List Char} {es es' : List Expression},
    Alternatives P s es → Alternatives P s' es' → s ++ t = s' ++ t' → Ends t → Ends t' →
      es = es' ∧ t = t'
  | _, _, _, _, _, _, .one h, .one h', he, ht, ht' => by
      obtain ⟨rfl, rfl⟩ := item_unique h h' he ht.follows ht'.follows
      exact ⟨rfl, rfl⟩
  | _, _, _, _, _, _, .one h, .more h' _, he, ht, _ => by
      rw [List.append_assoc, List.cons_append] at he
      have hbar := (item_unique h h' he ht.follows (before_of_head (by decide))).2
      exact absurd hbar (ht.ne_bar _)
  | _, _, _, _, _, _, .more h _, .one h', he, _, ht' => by
      rw [List.append_assoc, List.cons_append] at he
      have hbar := (item_unique h h' he (before_of_head (by decide)) ht'.follows).2
      exact absurd hbar.symm (ht'.ne_bar _)
  | _, _, _, _, _, _, .more h ha, .more h' ha', he, ht, ht' => by
      simp only [List.cons_append, List.append_assoc] at he
      obtain ⟨rfl, hrest⟩ := item_unique h h' he (before_of_head (by decide))
        (before_of_head (by decide))
      obtain ⟨rfl, rfl⟩ := alternatives_unique ha ha' (List.cons.inj hrest).2 ht ht'
      exact ⟨rfl, rfl⟩

theorem sequence_unique : ∀ {s s' t t' : List Char} {es es' : List Expression},
    Sequence P s es → Sequence P s' es' → s ++ t = s' ++ t' → Closes t → Closes t' →
      es = es' ∧ t = t'
  | _, _, _, _, _, _, .nil, .nil, he, _, _ => ⟨rfl, he⟩
  | _, _, _, _, _, _, .nil, .cons ha _, he, ht, _ => by
      rw [List.append_assoc] at he
      exact absurd he (ht.not_alternatives ha _)
  | _, _, _, _, _, _, .cons ha _, .nil, he, _, ht' => by
      rw [List.append_assoc] at he
      exact absurd he.symm (ht'.not_alternatives ha _)
  | _, _, _, _, _, _, .cons ha hs, .cons ha' hs', he, ht, ht' => by
      rw [List.append_assoc, List.append_assoc] at he
      obtain ⟨rfl, hrest⟩ := alternatives_unique ha ha' he (hs.ends ht.ends) (hs'.ends ht'.ends)
      obtain ⟨rfl, rfl⟩ := sequence_unique hs hs' hrest ht ht'
      exact ⟨rfl, rfl⟩

end

/-- **A text stands for one list of expressions only.** -/
theorem Sequence.unique {text : List Char} {es es' : List Expression} (h : Sequence P text es)
    (h' : Sequence P text es') : es = es' :=
  (sequence_unique h h' rfl (t := []) nofun nofun).1

end Multitouch.Grammar
