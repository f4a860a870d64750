import Multitouch.Proofs.Automaton.Edges
import Multitouch.Proofs.Language.Reading
import Multitouch.Proofs.Network.Exits

/-!
# Every state leads to a final one

An edge of an automaton is some links of its network and then a transition (`next_iff`), and a
state is final if links lead from its node to the final one.  So a way to the final node is a way
to a final state (`finishes_of_comes`), and in the automaton of a passable pattern every state has
one.  In such an automaton nothing is in the way: if a step enters states and none of them can be
left, the gesture is complete (`Unblocked.complete`).
-/

namespace Multitouch.Automaton

/-! ### Ways along edges -/

/-- An edge leads from the state `i` to `j`, whatever its guard lets pass. -/
def Next (A : Automaton) (i j : Nat) : Prop :=
  ∃ s, A.states[i]? = some s ∧ ∃ e ∈ s.edges, j ∈ e.dests

/-- Some final state is reached from the state `i`. -/
def Finishes (A : Automaton) (i : Nat) : Prop :=
  ∃ j, Relation.ReflTransGen A.Next i j ∧ ∃ s, A.states[j]? = some s ∧ s.final = true

theorem Finishes.of_next {A : Automaton} {i j : Nat} (hij : A.Next i j) (hj : A.Finishes j) :
    A.Finishes i := by
  obtain ⟨k, hk, hs⟩ := hj
  exact ⟨k, .head hij hk, hs⟩

/-- A state that cannot be left reaches no state but itself. -/
theorem Finishes.final_of_halting {A : Automaton} {i : Nat} {s : State} (h : A.Finishes i)
    (hs : A.states[i]? = some s) (hhalt : s.halting = true) : s.final = true := by
  obtain ⟨j, hj, t, ht, hf⟩ := h
  rcases Relation.ReflTransGen.cases_head hj with rfl | ⟨k, ⟨s', hs', e, he, -⟩, -⟩
  · obtain rfl : s = t := Option.some.inj (hs.symm.trans ht)
    exact hf
  · obtain rfl : s = s' := Option.some.inj (hs.symm.trans hs')
    rw [State.edges_of_halting hhalt] at he
    cases he

section Network

variable {L : Dialect} {N : Network} {initial final : Nat} (hN : N.Wired)
  (hi : initial < N.size)
include hN hi

/-- **An edge is some links and then a transition.** -/
theorem next_iff {k n j : Nat} (hk : (numbering N initial final).order[k]? = some n) :
    (ofNetwork L N initial final).Next k j ↔
      ∃ t, N.Reaches n t ∧ ∃ key target d,
        d ∈ N.dests t key target ∧ (numbering N initial final).order[j]? = some d := by
  have hv := numbering_inverse final hN hi
  have hdests := fun key target d => Closure.offers_run hN initial final (hv.lt ⟨k, hk⟩)
    (o := some (key, target, d))
  rw [Next, state_of_node hk]
  constructor
  · rintro ⟨s, hs, f, hf, hj⟩
    obtain rfl := Option.some.inj hs
    rw [edges_renumbered] at hf
    obtain ⟨e, he, rfl⟩ := List.mem_map.mp hf
    obtain ⟨d, hd, rfl⟩ := List.mem_map.mp hj
    have hd := Table.mem_dests.mpr ⟨e, he, rfl, rfl, hd⟩
    obtain ⟨t, ht, hdt⟩ := (hdests e.key e.target d).mp hd
    obtain ⟨j, hj⟩ := numbering_closed hN hi ⟨k, hk⟩ hd
    exact ⟨t, ht, e.key, e.target, d, hdt, (hv.get hj).symm ▸ hj⟩
  · rintro ⟨t, ht, key, target, d, hdt, hj⟩
    obtain ⟨e, he, -, -, hd⟩ := Table.mem_dests.mp ((hdests key target d).mpr ⟨t, ht, hdt⟩)
    exact ⟨_, rfl, _, edges_renumbered ▸ List.mem_map.mpr ⟨e, he, rfl⟩,
      List.mem_map.mpr ⟨d, hd, hv.get hj⟩⟩

/-- Edges lead to states. -/
theorem lt_of_next {i j : Nat} (h : (ofNetwork L N initial final).Next i j) :
    j < (ofNetwork L N initial final).size := by
  obtain ⟨s, hs, -⟩ := id h
  obtain ⟨n, hn, -⟩ := exists_node hs
  obtain ⟨-, -, -, -, d, -, hj⟩ := (next_iff hN hi hn).mp h
  obtain ⟨s', hs', -⟩ := exists_state (L := L) hj
  exact (Array.getElem?_eq_some_iff.mp hs').1

/-- **A way to the final node is a way to a final state.** -/
theorem finishes_of_comes {m : Nat} (h : N.Comes m final) :
    ∀ {k n : Nat}, (numbering N initial final).order[k]? = some n → N.Reaches n m →
      (ofNetwork L N initial final).Finishes k := by
  have hv := numbering_inverse final hN hi
  induction h using Relation.ReflTransGen.head_induction_on with
  | refl =>
      intro k n hk hnm
      obtain ⟨s, hs, -⟩ := exists_state (L := L) hk
      exact ⟨k, .refl, s, hs, (final_iff hN hi hk hs).mpr hnm⟩
  | @head m m' harc _ ih =>
      intro k n hk hnm
      obtain ⟨l, hl⟩ := harc
      cases l with
      | none => exact ih hk (hnm.tail hl)
      | some l =>
          -- the transition is that of an edge, and from its destination no links are needed yet
          have hd := (Closure.offers_run hN initial final (hv.lt ⟨k, hk⟩)
            (o := some (l.1, l.2, m'))).mpr ⟨m, hnm, hl⟩
          obtain ⟨j, hj⟩ := numbering_closed hN hi ⟨k, hk⟩ hd
          have hnext : (ofNetwork L N initial final).Next k j :=
            (next_iff hN hi hk).mpr ⟨m, hnm, l.1, l.2, m', hl, hj⟩
          exact .of_next hnext (ih hj .refl)

end Network

/-! ### Passable patterns -/

/-- Every edge has destinations, which are states, and every state leads to a final one. -/
structure Unblocked (A : Automaton) : Prop where
  leading : A.Leading
  lt_of_next : ∀ {i j}, A.Next i j → j < A.size
  finishes : ∀ i < A.size, A.Finishes i

/-- **In the automaton of a passable pattern nothing is in the way.** -/
theorem unblocked_ofExpressions (L : Dialect) {es : List Expression}
    (h : Expression.AllPassable es) : (ofExpressions L es).Unblocked := by
  have hN := Network.wired_ofExpressions es
  have hi := Network.initial_lt_ofExpressions es
  have hlead := leading_ofExpressions L es
  unfold ofExpressions at hlead ⊢
  refine ⟨hlead, Automaton.lt_of_next hN hi, fun k hk => ?_⟩
  obtain ⟨n, hn, -⟩ := exists_node (Array.getElem?_eq_getElem hk)
  have hlt := (numbering_inverse Network.final hN hi).lt ⟨k, hn⟩
  exact finishes_of_comes hN hi (Network.comes_final h hlt) hn .refl

/-- If a step enters states and none of them can be left, the gesture is complete. -/
theorem Unblocked.complete {A : Automaton} (h : A.Unblocked) {ids : List Nat} {x : Symbol}
    (hne : (A.step ids x).states ≠ []) (hexhausted : A.exhausted (A.step ids x).states = true) :
    A.complete (A.step ids x).states = true := by
  obtain ⟨j, hj⟩ := List.exists_mem_of_ne_nil _ hne
  obtain ⟨i, -, s, hs, e, he, hje⟩ := mem_step.mp hj
  have hlt := h.lt_of_next ⟨s, hs, e, (State.mem_matching.mp he).1, hje⟩
  have hstate := Array.getElem?_eq_getElem hlt
  have hhalt := List.all_eq_true.mp hexhausted _ (mem_known.mpr ⟨j, hj, hstate⟩)
  exact complete_iff.mpr ⟨j, hj, _, hstate, (h.finishes j hlt).final_of_halting hstate hhalt⟩

end Multitouch.Automaton
