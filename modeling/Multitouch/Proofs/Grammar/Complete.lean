import Multitouch.Proofs.Grammar.Sound
import Multitouch.Proofs.Grammar.Unambiguous

/-!
# What the rules write is read

By induction on how a text is written: what is written for an item, for alternatives or for a
sequence is read, whatever has been read before it, if the reading then succeeds from there on
(`item_complete`, `alternatives_complete`, `sequence_complete`).  What the reader remembers only to
place a fault does not matter, so success is asked for all such places (`Succeeds`).

No part is read as more than it is, because what follows it begins with a character that could not
continue it (`Ends`).

So the reader reads exactly what the rules write if its counter is asked about the digits of each
number; and as long as no run of digits exhausts the counter, this is what the rules write at all
(`read_iff`).  A longer run of zeros may be lost on it (`read_padded`).
-/

namespace Multitouch

namespace Grammar

/-- The text is read to its end from the given progress, wherever a fault would be placed. -/
def Succeeds (members alternatives : List Expression) (frames : List Frame) (states : Nat)
    (text : List Char) (answer : List Expression) : Prop :=
  ∀ start, (⟨members, alternatives, frames, states, start⟩ : Progress).run text = .ok answer

/-- The reading succeeds once an item has been read. -/
def Proceeds (members alternatives : List Expression) (frames : List Frame) (states : Nat)
    (item : Expression) (text : List Char) (answer : List Expression) : Prop :=
  ∀ start, ∃ q rest,
    (⟨members, alternatives, frames, states, start⟩ : Progress).take item text = .ok (q, rest) ∧
      q.run rest = .ok answer

/-- The states counted when expressions have been added. -/
def counted (frames : List Frame) (states : Nat) (es : List Expression) : Nat :=
  if frames = [] then states + (es.map fun e => e.bound + 1).sum else states

variable {members alternatives answer : List Expression} {frames : List Frame} {states : Nat}
  {s t : List Char}

/-! ### Steps -/

theorem run_of_step {p q : Progress} {c : Char} {text rest : List Char}
    (h : p.step c text = .ok (q, rest)) : p.run (c :: text) = q.run rest := by
  rw [Progress.run]
  split
  · next he =>
      rw [h] at he
      cases he
  · next hq =>
      rw [h] at hq
      cases hq
      rfl

/-- An action is read. -/
theorem action_complete {a : Action} (ha : Acts Counted s a) (ht : Follows t)
    (h : Proceeds members alternatives frames states (.action a) t answer) :
    Succeeds members alternatives frames states (s ++ t) answer := by
  intro start
  have haction := action_append ha ht
  obtain ⟨c, s, rfl, hclose, hopen⟩ : ∃ c s', s = c :: s' ∧ c ≠ ')' ∧ c ≠ '(' := by
    cases ha with
    | @mk phase => cases phase <;> exact ⟨_, _, rfl, by decide, by decide⟩
  rw [List.cons_append] at haction ⊢
  obtain ⟨start', hbegin⟩ :=
    Progress.begin_eq ⟨members, alternatives, frames, states, start⟩ (c :: (s ++ t))
  obtain ⟨q, rest, htake, hrun⟩ := h start'
  rw [run_of_step ?_, hrun]
  unfold Progress.step
  -- an action begins with a letter, so no group is opened or closed
  rw [if_neg fun hc => hclose hc.1, if_neg hopen, haction, hbegin]
  exact htake

/-- The parenthesis of a group is read. -/
theorem open_complete (hdepth : frames.length < maxNesting)
    (h : ∀ opening, Succeeds [] [] (⟨opening, members, alternatives⟩ :: frames) states t answer) :
    Succeeds members alternatives frames states ('(' :: t) answer := by
  intro start
  obtain ⟨start', hbegin⟩ :=
    Progress.begin_eq ⟨members, alternatives, frames, states, start⟩ ('(' :: t)
  rw [run_of_step ?_, h ('(' :: t) start']
  unfold Progress.step
  rw [if_neg fun hc => absurd hc.1 (by decide), if_pos rfl, hbegin, Progress.openGroup,
    if_neg (Nat.ne_of_lt hdepth)]

/-- A group is closed and its repetition read. -/
theorem close_complete {m opening : List Char} {r : Repetition} {es : List Expression}
    (hm : Repeats Counted m r) (ht : Follows t)
    (h : Proceeds members alternatives frames states (.group none es r) t answer) :
    Succeeds es.reverse [] (⟨opening, members, alternatives⟩ :: frames) states
      (')' :: (m ++ t)) answer := by
  intro start
  obtain ⟨q, rest, htake, hrun⟩ := h start
  rw [run_of_step ?_, hrun]
  unfold Progress.step
  rw [if_pos ⟨rfl, rfl⟩, Progress.closeGroup]
  simp only [repetition_append hm ht.repetition, List.reverse_reverse]
  exact htake

/-- An item with a bar after it is taken. -/
theorem bar_proceeds {e : Expression}
    (h : Succeeds members (e :: alternatives) frames states t answer) :
    Proceeds members alternatives frames states e ('|' :: t) answer :=
  fun start => ⟨_, _, rfl, h start⟩

/-- The last item of an expression is taken. -/
theorem close_proceeds {e : Expression} (ht : Ends t)
    (hstates : counted frames states [joined (alternatives.reverse ++ [e])] ≤ maxStates)
    (h : Succeeds (joined (alternatives.reverse ++ [e]) :: members) [] frames
      (counted frames states [joined (alternatives.reverse ++ [e])]) t answer) :
    Proceeds members alternatives frames states e t answer := by
  intro start
  refine ⟨_, t, ?_, h start⟩
  unfold Progress.take
  split
  · exact absurd rfl (ht.ne_bar _)
  · rw [close_eq, Progress.add]
    simp only [counted, List.map_cons, List.map_nil, List.sum_cons, List.sum_nil,
      Nat.add_zero] at hstates ⊢
    by_cases hf : frames = []
    · rw [if_pos hf] at hstates
      rw [if_pos hf, if_pos hf, if_pos (by simpa [Nat.add_assoc] using hstates), Nat.add_assoc]
    · rw [if_neg hf, if_neg hf]

/-! ### Whole texts -/

theorem counted_cons (e : Expression) (es : List Expression) :
    counted frames states (e :: es) = counted frames (counted frames states [e]) es := by
  unfold counted
  split
  · simp only [List.map_cons, List.map_nil, List.sum_cons, List.sum_nil]
    omega
  · rfl

theorem nestingAll_le_joined (es : List Expression) :
    Expression.nestingAll es ≤ (joined es).nesting := by
  unfold joined
  split
  · simp [Expression.nestingAll]
  · exact Nat.le_of_eq (by rw [Expression.nesting])

theorem le_counted (es : List Expression) : states ≤ counted frames states es := by
  unfold counted
  split
  · exact Nat.le_add_right _ _
  · exact Nat.le_refl _

mutual

/-- **What is written for an item is read.** -/
theorem item_complete : ∀ {s t : List Char} {e : Expression}
    {members alternatives : List Expression} {frames : List Frame} {states : Nat},
      Item Counted s e → Follows t → frames.length + e.nesting ≤ maxNesting → states ≤ maxStates →
        Proceeds members alternatives frames states e t answer →
          Succeeds members alternatives frames states (s ++ t) answer
  | _, _, _, _, _, _, _, .action ha, ht, _, _, h => action_complete ha ht h
  | _, _, _, _, _, _, _, .group hs hm, ht, hn, hstates, h => by
      rw [Expression.nesting] at hn
      rw [List.cons_append, List.append_assoc, List.cons_append]
      refine open_complete (by omega) fun opening => ?_
      refine sequence_complete hs (before_of_head (by decide)) ?_ ?_ ?_
      · rw [List.length_cons]
        omega
      · exact hstates
      · rw [List.append_nil]
        exact close_complete hm ht h

/-- What is written for alternatives is read. -/
theorem alternatives_complete : ∀ {s t : List Char} {es members alternatives : List Expression}
    {frames : List Frame} {states : Nat}, Alternatives Counted s es → Ends t →
      frames.length + Expression.nestingAll es ≤ maxNesting →
        counted frames states [joined (alternatives.reverse ++ es)] ≤ maxStates →
          Succeeds (joined (alternatives.reverse ++ es) :: members) [] frames
            (counted frames states [joined (alternatives.reverse ++ es)]) t answer →
              Succeeds members alternatives frames states (s ++ t) answer
  | _, _, _, _, _, _, _, .one he, ht, hn, hstates, h => by
      rw [Expression.nestingAll] at hn
      exact item_complete he ht.follows (by omega) (Nat.le_trans (le_counted _) hstates)
        (close_proceeds ht hstates h)
  | _, _, _, _, alternatives, _, _, @Alternatives.more _ _ _ e es he ha, ht, hn, hstates, h => by
      rw [Expression.nestingAll] at hn
      rw [List.append_assoc, List.cons_append]
      -- the item joins the alternatives read so far
      have hshift : alternatives.reverse ++ e :: es = (e :: alternatives).reverse ++ es := by simp
      rw [hshift] at hstates h
      exact item_complete he (before_of_head (by decide)) (by omega)
        (Nat.le_trans (le_counted _) hstates)
        (bar_proceeds (alternatives_complete ha ht (by omega) hstates h))

/-- What is written for a sequence is read. -/
theorem sequence_complete : ∀ {s t : List Char} {es members : List Expression}
    {frames : List Frame} {states : Nat}, Sequence Counted s es → Ends t →
      frames.length + Expression.nestingAll es ≤ maxNesting →
        counted frames states es ≤ maxStates →
          Succeeds (es.reverse ++ members) [] frames (counted frames states es) t answer →
            Succeeds members [] frames states (s ++ t) answer
  | _, _, _, _, frames, states, .nil, _, _, _, h => by
      have : counted frames states [] = states := by simp [counted]
      rwa [this] at h
  | _, _, _, _, _, _, @Sequence.cons _ _ _ parts es ha hs, ht, hn, hstates, h => by
      rw [Expression.nestingAll] at hn
      rw [counted_cons] at hstates h
      rw [List.append_assoc]
      refine alternatives_complete ha (hs.ends ht) ?_ (Nat.le_trans (le_counted es) hstates) ?_
      · have hparts := nestingAll_le_joined parts
        omega
      · refine sequence_complete hs ht (by omega) hstates ?_
        simpa using h

end

/-- **A text that the rules write, within the limits, is read**, if the digits of each number are
counted. -/
theorem read_complete {text : List Char} {es : List Expression} (h : Derives Counted text es) :
    read text = .ok es := by
  have hcounted : counted [] 3 es = statesBound es := if_pos rfl
  have hrun : Succeeds [] [] [] 3 (text ++ []) es := by
    refine sequence_complete h.sequence nofun ?_ ?_ fun start => ?_
    · simpa using h.nesting_le
    · exact hcounted ▸ h.states_le
    · rw [Progress.run]
      simp [Progress.finish]
  rw [List.append_nil] at hrun
  exact hrun []

/-- If no run of digits exhausts the counter, all digits are counted. -/
theorem Derives.counted {text : List Char} {es : List Expression} (h : Derives Any text es)
    (hshort : ShortRuns text) : Derives Counted text es :=
  h.imp fun _ _ hi hn => hshort.counted hi hn.ne_nil hn.isDigit

/-! ### Zeros in front of a number -/

/-- A one with zeros in front of it. -/
def padded (zeros : Nat) : List Char :=
  List.replicate zeros '0' ++ ['1']

theorem length_padded (k : Nat) : (padded k).length = k + 1 := by
  simp [padded]

theorem value_padded (k : Nat) : value (padded k) = 1 := by
  induction k with
  | zero => rfl
  | succ k ih =>
      rw [padded, List.replicate_succ, List.cons_append, value, Nat.ofDigitChars_cons]
      exact ih

theorem numeral_padded (k : Nat) : Numeral Any (padded k) 1 where
  ne_nil := List.ne_nil_of_length_eq_add_one (length_padded k)
  isDigit c hc := by
    rcases List.mem_append.mp hc with hc | hc
    · rw [List.eq_of_mem_replicate hc]
      rfl
    · rw [List.mem_singleton.mp hc]
      rfl
  value_eq := value_padded k
  lt := by decide
  fits := trivial

/-- The rules allow any number of zeros. -/
theorem derives_padded (k : Nat) :
    Derives Any ('d' :: padded k) [.action ⟨⟨.press, 1⟩, anyTarget, .once⟩] where
  sequence := by
    have hacts : Acts Any (Phase.press.letter :: (padded k ++ ([] ++ [])))
        ⟨⟨.press, 1⟩, anyTarget, .once⟩ := .mk (numeral_padded k) (Nat.le_refl 1) .any .once
    rw [List.append_nil, List.append_nil] at hacts
    have hsequence := Sequence.cons (.one (.action hacts)) .nil
    rwa [List.append_nil] at hsequence
  nesting_le := by decide
  states_le := by decide

/-- **Zeros in front of a slot are lost on a counter that finds no digits.**  The slot is then
missing behind them. -/
theorem read_padded {k : Nat} (h : ¬ Counted (padded k)) :
    read ('d' :: padded k) = .error ⟨.missingSlot, []⟩ := by
  have hn := numeral_padded k
  have hend : Before (fun c => c.isDigit = false) [] := nofun
  have htake := takeWhile_digits hn.isDigit hend
  have hdrop := dropWhile_digits hn.isDigit hend
  rw [List.append_nil] at htake hdrop
  have hnumber : number (padded k) = .ok (none, []) := by
    simp only [number, htake, hdrop, hn.value_eq, if_pos hn.lt, if_neg h]
  have haction : action ('d' :: padded k) = .error ⟨.missingSlot, []⟩ := by
    simp only [action, Phase.ofLetter?, slot, hnumber]
  have hstep : ({} : Progress).step 'd' (padded k) = .error ⟨.missingSlot, []⟩ := by
    rw [Progress.step, if_neg (by decide), if_neg (by decide), haction]
  rw [read, Progress.run]
  split
  · next he =>
      rw [hstep] at he
      cases he
      rfl
  · next hq =>
      rw [hstep] at hq
      cases hq

/-- There is a text that the rules write and the reader refuses. -/
theorem exists_derives_and_refused : ∃ text es, Derives Any text es ∧
    read text = .error ⟨.missingSlot, []⟩ := by
  refine ⟨_, _, derives_padded (2 ^ 31 - 1), read_padded fun h => ?_⟩
  rw [Counted, length_padded] at h
  exact absurd h (by decide)

end Grammar

end Multitouch
