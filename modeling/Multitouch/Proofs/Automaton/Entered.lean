import Multitouch.Proofs.Automaton.Exits
import Multitouch.Proofs.Network.Frame

/-!
# The states that a step enters

A step answers the states that it enters in ascending order, each of them once.  In an automaton
built from a pattern these are never the initial one, since no transition of its network leads to
the start (`rooted_ofExpressions`).  So after a step that does not end the gesture the automaton
is in proper states, and one of them can be left (`Rooted.underway`).
-/

namespace Multitouch

/-- Of equal neighbours one is kept, so what ascends ascends strictly. -/
theorem pairwise_eraseReps {l : List Nat} (h : l.Pairwise (· ≤ ·)) :
    l.eraseReps.Pairwise (· < ·) := by
  -- what has been kept so far stands in reverse before the number that is looked at
  have loop : ∀ (l : List Nat) (n : Nat) (kept : List Nat), (n :: l).Pairwise (· ≤ ·) →
      (n :: kept).Pairwise (· > ·) →
        (List.eraseRepsBy.loop (· == ·) n l kept).Pairwise (· < ·) := by
    intro l
    induction l with
    | nil => exact fun n kept _ hkept => List.pairwise_reverse.mpr hkept
    | cons m l ih =>
        intro n kept hl hkept
        obtain ⟨hle, hl⟩ := List.pairwise_cons.mp hl
        unfold List.eraseRepsBy.loop
        split
        · next h =>
            obtain rfl : n = m := eq_of_beq h
            exact ih n kept hl hkept
        · next h =>
            have hlt : n < m := (hle m List.mem_cons_self).lt_of_ne fun he => by simp [he] at h
            refine ih m (n :: kept) hl (List.pairwise_cons.mpr ⟨fun k hk => ?_, hkept⟩)
            rcases List.mem_cons.mp hk with rfl | hk
            · exact hlt
            · exact ((List.pairwise_cons.mp hkept).1 k hk).trans hlt
  cases l with
  | nil => exact .nil
  | cons n l => exact loop l n [] h (List.pairwise_singleton _ n)

namespace Automaton

variable {A : Automaton} {ids : List Nat} {x : Symbol}

theorem pairwise_ascending (ids : List Nat) : (ascending ids).Pairwise (· < ·) := by
  have htrans : ∀ k m n : Nat, decide (k ≤ m) = true → decide (m ≤ n) = true →
      decide (k ≤ n) = true := by
    simpa using fun _ _ _ => Nat.le_trans
  have htotal : ∀ m n : Nat, (decide (m ≤ n) || decide (n ≤ m)) = true := by
    simpa using Nat.le_total
  have hsorted : (ids.mergeSort fun m n => decide (m ≤ n)).Pairwise (· ≤ ·) := by
    simpa using List.pairwise_mergeSort htrans htotal ids
  exact pairwise_eraseReps hsorted

/-! ### Nothing leads back to the start -/

/-- Edges lead to states, and never to the initial one, and each row has an edge. -/
structure Rooted (A : Automaton) : Prop where
  lt_of_next : ∀ {i j}, A.Next i j → j < A.size
  ne_initial : ∀ {i j}, A.Next i j → j ≠ initial
  filled : A.Filled

/-- **In the automaton of a pattern nothing leads back to the start.** -/
theorem rooted_ofExpressions (L : Dialect) (es : List Expression) :
    (ofExpressions L es).Rooted := by
  have hN := Network.wired_ofExpressions es
  have hi := Network.initial_lt_ofExpressions es
  have hfilled := filled_ofExpressions L es
  unfold ofExpressions at hfilled ⊢
  refine ⟨Automaton.lt_of_next hN hi, fun {i j} hnext => ?_, hfilled⟩
  rintro rfl
  obtain ⟨s, hs, -⟩ := id hnext
  obtain ⟨n, hn, -⟩ := exists_node hs
  obtain ⟨t, -, key, target, d, hd, hstart⟩ := (next_iff hN hi hn).mp hnext
  -- the initial state is the initial node, which no transition leads to
  have hd' : d = Network.initial :=
    Option.some.inj (hstart.symm.trans (numbering_initial Network.final hN hi))
  exact (Network.added_of_dest hd).1 hd'

/-! ### Steps -/

/-- The states that an automaton may be in, once it has read a symbol and can go on. -/
structure Underway (A : Automaton) (ids : List Nat) : Prop where
  ascending : ids.Pairwise (· < ·)
  lt : ∀ i ∈ ids, i < A.size
  not_initial : initial ∉ ids
  leaves : ∃ i ∈ ids, ∃ s, A.states[i]? = some s ∧ s.edges ≠ []

theorem Underway.ne_nil (h : A.Underway ids) : ids ≠ [] := by
  obtain ⟨i, hi, -⟩ := h.leaves
  exact List.ne_nil_of_mem hi

theorem next_of_mem_step {j : Nat} (h : j ∈ (A.step ids x).states) : ∃ i, A.Next i j := by
  obtain ⟨i, -, s, hs, e, he, hj⟩ := mem_step.mp h
  exact ⟨i, s, hs, e, (State.mem_matching.mp he).1, hj⟩

/-- If some of the states can be left, there is an edge by which one is. -/
theorem Filled.leaves (hA : A.Filled) (h : A.exhausted ids = false) :
    ∃ i ∈ ids, ∃ s, A.states[i]? = some s ∧ s.edges ≠ [] := by
  obtain ⟨s, hs, hhalt⟩ := List.all_eq_false.mp h
  obtain ⟨i, hi, hs⟩ := mem_known.mp hs
  exact ⟨i, hi, s, hs, (hA i s hs).edges_ne_nil (Bool.eq_false_iff.mpr hhalt)⟩

/-- **After a step that leads on, the automaton is underway**, whatever states it was in. -/
theorem Rooted.underway (hA : A.Rooted) (h : A.exhausted (A.step ids x).states = false) :
    A.Underway (A.step ids x).states where
  ascending := pairwise_ascending _
  lt j hj := by
    obtain ⟨i, hnext⟩ := next_of_mem_step hj
    exact hA.lt_of_next hnext
  not_initial hj := by
    obtain ⟨i, hnext⟩ := next_of_mem_step hj
    exact hA.ne_initial hnext rfl
  leaves := hA.filled.leaves h

end Automaton

end Multitouch
