import Multitouch.Proofs.Grammar.Tokens

/-!
# What is read is written by the rules

While a pattern is read, the text behind the reader is a sequence that breaks off (`Behind`): on
the outermost level some complete expressions and some alternatives of the next one, then, if a
group is open, a parenthesis and the same again inside.  What is on one level is a `Level`; an item
that has been read adds to it, by a bar after it or as the end of an expression.

Every step keeps this (`Behind.step`), and when the text has been read to its end nothing is open,
so that the text behind is the whole pattern (`read_sound`).
-/

namespace Multitouch

namespace Expression

theorem nestingAll_le {es : List Expression} {k : Nat} :
    nestingAll es ≤ k ↔ ∀ e ∈ es, e.nesting ≤ k := by
  induction es with
  | nil => simp [nestingAll]
  | cons e es ih => rw [nestingAll, Nat.max_le, ih, List.forall_mem_cons]

end Expression

namespace Grammar

/-! ### Longer sequences -/

/-- What is written for items with a bar after each. -/
inductive Barred (P : List Char → Prop) : List Char → List Expression → Prop where
  | nil : Barred P [] []
  | more {s t : List Char} {e : Expression} {es : List Expression} :
      Item P s e → Barred P t es → Barred P (s ++ '|' :: t) (e :: es)

variable {P : List Char → Prop}

theorem Barred.any {t : List Char} {es : List Expression} (h : Barred P t es) :
    Barred Any t es := by
  induction h with
  | nil => exact .nil
  | more he _ ih => exact .more he.any ih

theorem Barred.concat {s t : List Char} {e : Expression} {es : List Expression}
    (h : Barred P t es) (he : Item P s e) : Barred P (t ++ (s ++ ['|'])) (es ++ [e]) := by
  induction h with
  | nil => exact .more he .nil
  | @more s' t' e' es' he' _ ih =>
      rw [List.append_assoc, List.cons_append]
      exact .more he' ih

theorem Barred.alternatives {s t : List Char} {e : Expression} {es : List Expression}
    (h : Barred P t es) (he : Item P s e) : Alternatives P (t ++ s) (es ++ [e]) := by
  induction h with
  | nil => exact .one he
  | @more s' t' e' es' he' _ ih =>
      rw [List.append_assoc, List.cons_append]
      exact .more he' ih

theorem Sequence.concat {t : List Char} {alternatives : List Expression}
    (ha : Alternatives P t alternatives) :
    ∀ {s : List Char} {es : List Expression}, Sequence P s es →
      Sequence P (s ++ t) (es ++ [joined alternatives])
  | _, _, .nil => by simpa using Sequence.cons ha .nil
  | _, _, .cons hb hs => by
      rw [List.append_assoc]
      exact .cons hb (hs.concat ha)

theorem close_eq (p : Progress) (e : Expression) :
    p.close e = joined (p.alternatives.reverse ++ [e]) := by
  unfold Progress.close
  cases h : p.alternatives with
  | nil => rfl
  | cons f fs =>
      rw [if_neg (List.cons_ne_nil f fs), ← List.reverse_cons]
      -- two alternatives or more do not become one by being reversed
      have hlen : (e :: f :: fs).reverse.length = fs.length + 2 := by simp
      match hr : (e :: f :: fs).reverse with
      | [] => simp [hr] at hlen
      | [_] => simp [hr] at hlen
      | _ :: _ :: _ => rfl

theorem joined_nesting_le {es : List Expression} {k : Nat} (h : ∀ e ∈ es, e.nesting ≤ k) :
    (joined es).nesting ≤ k := by
  unfold joined
  split
  · exact h _ List.mem_cons_self
  · rw [Expression.nesting]
    exact Expression.nestingAll_le.mpr h

/-! ### The text behind the reader -/

/-- A sequence that breaks off at the nesting `depth`: its complete members, and the alternatives
of the expression that is being read, each of them the latest first. -/
structure Level (depth : Nat) (members alternatives : List Expression) (text : List Char) :
    Prop where
  split : ∃ s u, text = s ++ u ∧ Sequence Counted s members.reverse ∧
    Barred Counted u alternatives.reverse
  depth_le : depth ≤ maxNesting
  members_le : ∀ e ∈ members, depth + e.nesting ≤ maxNesting
  alternatives_le : ∀ e ∈ alternatives, depth + e.nesting ≤ maxNesting

theorem Level.start {depth : Nat} (h : depth ≤ maxNesting) : Level depth [] [] [] :=
  ⟨⟨[], [], rfl, .nil, .nil⟩, h, nofun, nofun⟩

/-- An item with a bar after it is one more alternative. -/
theorem Level.bar {depth : Nat} {members alternatives : List Expression} {text s : List Char}
    {e : Expression} (h : Level depth members alternatives text) (he : Item Counted s e)
    (hn : depth + e.nesting ≤ maxNesting) :
    Level depth members (e :: alternatives) (text ++ (s ++ ['|'])) := by
  obtain ⟨⟨s', u, rfl, hs, hu⟩, hd, hm, ha⟩ := h
  refine ⟨⟨s', u ++ (s ++ ['|']), List.append_assoc .., hs, ?_⟩, hd, hm, ?_⟩
  · rw [List.reverse_cons]
    exact hu.concat he
  · exact List.forall_mem_cons.mpr ⟨hn, ha⟩

/-- An item without one completes the expression. -/
theorem Level.close {depth : Nat} {p : Progress} {text s : List Char} {e : Expression}
    (h : Level depth p.members p.alternatives text) (he : Item Counted s e)
    (hn : depth + e.nesting ≤ maxNesting) :
    Level depth (p.close e :: p.members) [] (text ++ s) := by
  obtain ⟨⟨s', u, rfl, hs, hu⟩, hd, hm, ha⟩ := h
  refine ⟨⟨s' ++ (u ++ s), [], by simp, ?_, .nil⟩, hd, ?_, nofun⟩
  · rw [List.reverse_cons, close_eq]
    exact hs.concat (hu.alternatives he)
  · refine List.forall_mem_cons.mpr ⟨?_, hm⟩
    have hle : (p.close e).nesting ≤ maxNesting - depth := by
      rw [close_eq]
      refine joined_nesting_le fun f hf => ?_
      rcases List.mem_append.mp hf with hf | hf
      · have := ha f (List.mem_reverse.mp hf)
        omega
      · obtain rfl := List.mem_singleton.mp hf
        omega
    omega

/-- Without alternatives begun, the text is that of the members. -/
theorem Level.sequence {depth : Nat} {members : List Expression} {text : List Char}
    (h : Level depth members [] text) : Sequence Counted text members.reverse := by
  obtain ⟨s, u, rfl, hs, hu⟩ := h.split
  obtain rfl : u = [] := by cases hu; rfl
  rwa [List.append_nil]

theorem Level.group_le {depth : Nat} {members : List Expression} {text : List Char}
    {r : Repetition} (h : Level (depth + 1) members [] text) :
    depth + (Expression.group none members.reverse r).nesting ≤ maxNesting := by
  have hd := h.depth_le
  have hall : Expression.nestingAll members.reverse ≤ maxNesting - (depth + 1) :=
    Expression.nestingAll_le.mpr fun e he => by
      have := h.members_le e (List.mem_reverse.mp he)
      omega
  rw [Expression.nesting]
  omega

/-- The text behind the reader, on all levels that are open. -/
inductive Behind (states : Nat) :
    List Frame → List Expression → List Expression → List Char → Prop where
  | outer {members alternatives : List Expression} {text : List Char} :
      Level 0 members alternatives text → states = statesBound members → states ≤ maxStates →
        Behind states [] members alternatives text
  | inner {frame : Frame} {frames : List Frame} {members alternatives : List Expression}
      {before text : List Char} :
      Behind states frames frame.members frame.alternatives before →
        Level (frames.length + 1) members alternatives text →
          Behind states (frame :: frames) members alternatives (before ++ '(' :: text)

/-- The text behind a reader that has come to `p`. -/
def Progress.Read (p : Progress) (text : List Char) : Prop :=
  Behind p.states p.frames p.members p.alternatives text

theorem Behind.depth_le {states : Nat} {frames : List Frame}
    {members alternatives : List Expression} {text : List Char}
    (h : Behind states frames members alternatives text) : frames.length ≤ maxNesting := by
  cases h with
  | outer hl => exact hl.depth_le
  | inner _ hl => exact hl.depth_le

theorem Behind.bar {states : Nat} {frames : List Frame} {members alternatives : List Expression}
    {before s : List Char} {e : Expression}
    (h : Behind states frames members alternatives before) (he : Item Counted s e)
    (hn : frames.length + e.nesting ≤ maxNesting) :
    Behind states frames members (e :: alternatives) (before ++ (s ++ ['|'])) := by
  cases h with
  | outer hl hs hle => exact .outer (hl.bar he (by simpa using hn)) hs hle
  | inner hb hl =>
      rw [List.append_assoc, List.cons_append]
      exact .inner hb (hl.bar he hn)

namespace Progress

variable {p q : Progress} {before text rest : List Char}

/-- A complete expression is added; only on the outermost level are its states counted. -/
theorem Read.add {s : List Char} {e : Expression} (h : p.Read before) (he : Item Counted s e)
    (hn : p.frames.length + e.nesting ≤ maxNesting) (ha : p.add (p.close e) = .ok q) :
    q.Read (before ++ s) := by
  obtain ⟨members, alternatives, frames, states, start⟩ := p
  unfold Read at h ⊢
  unfold Progress.add at ha
  cases h with
  | outer hl hs hle =>
      rw [if_pos rfl] at ha
      split at ha
      · next hbound =>
          cases ha
          refine .outer (hl.close he (by simpa using hn)) ?_ hbound
          simp only [statesBound, List.map_cons, List.sum_cons] at hs ⊢
          omega
      · cases ha
  | inner hb hl =>
      rw [if_neg (List.cons_ne_nil _ _)] at ha
      cases ha
      rw [List.append_assoc, List.cons_append]
      exact .inner hb (hl.close he hn)

/-- **An item that has been read is taken.** -/
theorem Read.take {s : List Char} {e : Expression} (h : p.Read before) (he : Item Counted s e)
    (hn : p.frames.length + e.nesting ≤ maxNesting) (ht : p.take e text = .ok (q, rest)) :
    ∃ used, text = used ++ rest ∧ q.Read (before ++ (s ++ used)) := by
  unfold Progress.take at ht
  split at ht
  · cases ht
    exact ⟨['|'], rfl, Behind.bar h he hn⟩
  · split at ht
    · cases ht
    · next ha =>
        cases ht
        refine ⟨[], rfl, ?_⟩
        rw [List.append_nil]
        exact h.add he hn ha

theorem begin_eq (p : Progress) (text : List Char) :
    ∃ start, p.begin text = { p with start } := by
  unfold Progress.begin
  split
  · exact ⟨text, rfl⟩
  · exact ⟨p.start, rfl⟩

/-- A parenthesis opens a level, unless that would be too deep. -/
theorem Read.openGroup {opening : List Char} (h : p.Read before)
    (ho : p.openGroup opening = .ok q) : q.Read (before ++ ['(']) := by
  have hdepth := Behind.depth_le h
  unfold Progress.openGroup at ho
  split at ho
  · cases ho
  · next hlen =>
      cases ho
      have hlevel : Level (p.frames.length + 1) [] [] [] := .start (by omega)
      exact .inner h hlevel

/-- A parenthesis closes the innermost level, which becomes a group on the one around it. -/
theorem Read.closeGroup {closing : List Char} (h : p.Read before) (ha : p.alternatives = [])
    (hs : p.closeGroup closing text = .ok (q, rest)) :
    ∃ used, text = used ++ rest ∧ q.Read (before ++ ')' :: used) := by
  unfold Progress.closeGroup at hs
  unfold Read at h
  split at hs
  · cases hs
  · next frame frames hframes =>
      split at hs
      · cases hs
      · next r left hr =>
          obtain ⟨m, rfl, hm⟩ := repetition_sound hr
          rw [hframes, ha] at h
          cases h with
          | inner hb hl =>
              have houter : Read { p with
                  members := frame.members, alternatives := frame.alternatives, frames } _ := hb
              obtain ⟨used, rfl, hq⟩ := houter.take (.group hl.sequence hm) hl.group_le hs
              exact ⟨m ++ used, by simp, by simpa using hq⟩

/-- **A step reads what some rule writes.** -/
theorem Read.step {c : Char} (h : p.Read before) (hs : p.step c text = .ok (q, rest)) :
    ∃ used, c :: text = used ++ rest ∧ q.Read (before ++ used) := by
  obtain ⟨start, hbegin⟩ := begin_eq p (c :: text)
  have hread : Read { p with start } before := h
  unfold Progress.step at hs
  rw [hbegin] at hs
  split at hs
  · next hc =>
      obtain ⟨rfl, ha⟩ := hc
      obtain ⟨used, rfl, hq⟩ := h.closeGroup ha hs
      exact ⟨')' :: used, rfl, hq⟩
  · split at hs
    · next hc =>
        subst hc
        split at hs
        · cases hs
        · next ho =>
            cases hs
            exact ⟨['('], rfl, hread.openGroup ho⟩
    · split at hs
      · cases hs
      · next a left ha =>
          obtain ⟨s, hs', hact⟩ := action_sound ha
          have hdepth := Behind.depth_le h
          obtain ⟨used, rfl, hq⟩ := hread.take (.action hact) hdepth hs
          exact ⟨s ++ used, by rw [hs', List.append_assoc], hq⟩

/-- What is left of the text at the end, with what is behind, is a pattern. -/
theorem Read.run {es : List Expression} (h : p.Read before) (hr : p.run text = .ok es) :
    Derives Counted (before ++ text) es := by
  fun_induction Progress.run p text generalizing before with
  | case1 p =>
      unfold Progress.finish at hr
      split at hr
      · cases hr
      · next ha =>
          split at hr
          · cases hr
          · next hf =>
              cases hr
              unfold Progress.Read at h
              rw [hf, Classical.not_not.mp ha] at h
              cases h with
              | outer hl hs hle =>
                  -- no group is open, so all of the text is on the outermost level
                  rw [List.append_nil]
                  refine ⟨hl.sequence, Expression.nestingAll_le.mpr fun e he => ?_, ?_⟩
                  · simpa using hl.members_le e (List.mem_reverse.mp he)
                  · rw [statesBound, List.map_reverse, List.sum_reverse]
                    rw [statesBound] at hs
                    rwa [hs] at hle
  | case2 => cases hr
  | case3 p c text q rest hs ih =>
      obtain ⟨used, ht, hq⟩ := h.step hs
      rw [ht, ← List.append_assoc]
      exact ih hq hr

end Progress

/-- **What is read is a pattern that stands for the answer.** -/
theorem read_sound {text : List Char} {es : List Expression} (h : read text = .ok es) :
    Derives Counted text es := by
  have hstart : ({} : Progress).Read [] :=
    .outer (.start (Nat.zero_le _)) rfl (by decide)
  exact hstart.run h

end Grammar

theorem Expression.derives_of_read {pattern : String} {es : List Expression}
    (h : Expression.read pattern = .ok es) : Grammar.Derives Grammar.Counted pattern.toList es := by
  unfold Expression.read at h
  split at h
  · next hr =>
      cases h
      exact Grammar.read_sound hr
  · cases h

end Multitouch
