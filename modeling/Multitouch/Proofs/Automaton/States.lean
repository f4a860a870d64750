import Multitouch.Automaton.Build
import Multitouch.Proofs.Automaton.Numbering
import Multitouch.Proofs.Automaton.Steps
import Multitouch.Proofs.Closure.Exact
import Multitouch.Proofs.Language.Words

/-!
# The states of an automaton built from a network

The state with the number `k` is the `k`th node that the numbering found, with the edges that the
closure gives it (`ofNetwork_state`).  Each edge has the guard that its text is in the dialect,
and leads to the numbers of the nodes that it led to before.
-/

namespace Multitouch.Automaton

/-- The numbers of the nodes of a network that its automaton keeps. -/
def numbering (N : Network) (initial final : Nat) : Numbering :=
  Numbering.run (Closure.run N initial final).cells initial

/-- Every text gets the guard that it is in the dialect. -/
theorem guardFor_ofSource (L : Dialect) (texts : List String) (source : String) :
    guardFor L (texts.map (.ofSource L)) source = .ofSource L source := by
  unfold guardFor
  split
  · next g h =>
      obtain ⟨text, -, rfl⟩ := List.mem_map.mp (List.mem_of_find?_eq_some h)
      have htext := List.find?_some h
      exact congrArg (Guard.ofSource L) (eq_of_beq htext)
  · rfl

/-- A guard lets the targets pass that its text matches. -/
theorem test_ofSource {L : Dialect} {source target : String} :
    (Guard.ofSource L source).test target = true ↔
      ∃ p, L source = some p ∧ p target = true := by
  unfold Guard.test Guard.ofSource
  cases h : L source <;> simp

/-- A cell's edge as an edge of a state. -/
def edgeOf (L : Dialect) (v : Numbering) (e : Edge String) : Edge Guard :=
  ⟨e.key, .ofSource L e.target, e.dests.map v.get⟩

/-- A cell as a state. -/
def renumbered (L : Dialect) (v : Numbering) (tag : Tag) (cell : Cell) : State where
  tag := tag
  rows := cell.table.rows.map fun row =>
    row.entries.map fun way => (.ofSource L way.1, way.2.map v.get)
  final := cell.final

theorem stateOf_guards (L : Dialect) (texts : List String) (v : Numbering) (tag : Tag)
    (cell : Cell) : stateOf L (texts.map (.ofSource L)) v tag cell = renumbered L v tag cell := by
  simp only [stateOf, guardFor_ofSource]
  rfl

theorem edges_renumbered {L : Dialect} {v : Numbering} {tag : Tag} {cell : Cell} :
    (renumbered L v tag cell).edges = cell.table.edges.map (edgeOf L v) := by
  have hrows := Edge.ofRows_map (Guard.ofSource L) (·.map v.get)
    (cell.table.rows.map (·.entries))
  rw [Keyed.map_map] at hrows
  exact hrows

variable {L : Dialect} {N : Network} {initial final : Nat}

/-- **A state is a node that is reached, with its closure.** -/
theorem ofNetwork_state (k : Nat) :
    (ofNetwork L N initial final).states[k]? =
      (numbering N initial final).order[k]?.map fun n =>
        renumbered L (numbering N initial final) (N.tag n)
          ((Closure.run N initial final).cell n) := by
  simp only [ofNetwork, Array.getElem?_map, stateOf_guards]
  rfl

/-- A node that is kept becomes a state. -/
theorem state_of_node {k n : Nat} (hk : (numbering N initial final).order[k]? = some n) :
    (ofNetwork L N initial final).states[k]? = some
      (renumbered L (numbering N initial final) (N.tag n)
        ((Closure.run N initial final).cell n)) := by
  rw [ofNetwork_state, hk, Option.map_some]

theorem exists_state {k n : Nat} (hk : (numbering N initial final).order[k]? = some n) :
    ∃ s, (ofNetwork L N initial final).states[k]? = some s ∧ s.tag = N.tag n :=
  ⟨_, state_of_node hk, rfl⟩

theorem exists_node {k : Nat} {s : State}
    (hs : (ofNetwork L N initial final).states[k]? = some s) :
    ∃ n, (numbering N initial final).order[k]? = some n ∧ s.tag = N.tag n := by
  rw [ofNetwork_state] at hs
  obtain ⟨n, hn, rfl⟩ := Option.map_eq_some_iff.mp hs
  exact ⟨n, hn, rfl⟩

section Wired

variable (hN : N.Wired) (hi : initial < N.size)

theorem mem_cell_dests {cell : Cell} {d : Nat} :
    d ∈ cell.dests ↔ ∃ key target, d ∈ cell.table.dests key target := by
  simp only [Cell.dests, List.mem_flatMap, Table.mem_dests]
  constructor
  · rintro ⟨e, he, hd⟩
    exact ⟨e.key, e.target, e, he, rfl, rfl, hd⟩
  · rintro ⟨_, _, e, he, -, -, hd⟩
    exact ⟨e, he, hd⟩

include hN

theorem cell_dests_lt (cell : Cell) (hc : cell ∈ (Closure.run N initial final).cells) (d : Nat)
    (hd : d ∈ cell.dests) : d < (Closure.run N initial final).cells.size := by
  obtain ⟨n, hn, rfl⟩ := Array.mem_iff_getElem.mp hc
  obtain ⟨key, target, hd⟩ := mem_cell_dests.mp hd
  have hcell : (Closure.run N initial final).cell n = (Closure.run N initial final).cells[n] := by
    rw [Closure.cell, Array.getElem?_eq_getElem hn, Option.getD_some]
  rw [Closure.size_run] at hn ⊢
  obtain ⟨t, -, ho⟩ := (Closure.offers_run hN initial final hn
    (o := some (key, target, d))).mp (by rwa [Cell.Offers, hcell])
  exact hN t (some (key, target)) d ho

include hi

variable (final) in
theorem numbering_inverse : (numbering N initial final).Inverse N.size := by
  have hs := Closure.size_run N initial final
  exact hs ▸ Numbering.run_inverse (cell_dests_lt hN) (hs.symm ▸ hi)

variable (final) in
theorem numbering_initial : (numbering N initial final).order[Automaton.initial]? = some initial :=
  Numbering.run_initial (cell_dests_lt hN) ((Closure.size_run N initial final).symm ▸ hi)

theorem cell_of_has {n : Nat} (hn : (numbering N initial final).Has n) :
    (Closure.run N initial final).cells[n]? = some ((Closure.run N initial final).cell n) := by
  have hlt : n < (Closure.run N initial final).cells.size :=
    (Closure.size_run N initial final).symm ▸ (numbering_inverse final hN hi).lt hn
  rw [Closure.cell, Array.getElem?_eq_getElem hlt, Option.getD_some]

/-- The destinations of a node that is kept are kept. -/
theorem numbering_closed {n d : Nat} {key : Key} {target : String}
    (hn : (numbering N initial final).Has n)
    (hd : d ∈ ((Closure.run N initial final).cell n).table.dests key target) :
    (numbering N initial final).Has d :=
  Numbering.run_closed (cell_dests_lt hN) ((Closure.size_run N initial final).symm ▸ hi) hn
    (cell_of_has hN hi hn) (mem_cell_dests.mpr ⟨key, target, hd⟩)

/-- A state is final if links lead from its node to the final one. -/
theorem final_iff {k n : Nat} {s : State}
    (hk : (numbering N initial final).order[k]? = some n)
    (hs : (ofNetwork L N initial final).states[k]? = some s) :
    s.final = true ↔ N.Reaches n final := by
  have hfinal := Closure.offers_run hN initial final
    ((numbering_inverse final hN hi).lt ⟨k, hk⟩) (o := none)
  obtain rfl := Option.some.inj (hs.symm.trans (state_of_node hk))
  exact hfinal.trans ⟨fun ⟨_, ht, he⟩ => he ▸ ht, fun h => ⟨final, h, rfl⟩⟩

/-- A symbol leads from a state to another as some edge that it fits leads from node to node. -/
theorem mem_matching {k n : Nat} {s : State} {x : Symbol} (P : Nat → Prop)
    (hk : (numbering N initial final).order[k]? = some n)
    (hs : (ofNetwork L N initial final).states[k]? = some s) :
    (∃ e ∈ s.matching x, ∃ j ∈ e.dests, P j) ↔
      ∃ target d j, d ∈ ((Closure.run N initial final).cell n).table.dests x.key target ∧
        x.Fits L x.key target ∧ (numbering N initial final).order[j]? = some d ∧ P j := by
  have hv := numbering_inverse final hN hi
  obtain rfl := Option.some.inj (hs.symm.trans (state_of_node hk))
  simp only [State.mem_matching, edges_renumbered, List.mem_map]
  constructor
  · rintro ⟨_, ⟨⟨e, he, rfl⟩, hkey, htest⟩, j, hj, hP⟩
    obtain ⟨d, hd, rfl⟩ := List.mem_map.mp hj
    have hd' := Table.mem_dests.mpr ⟨e, he, hkey, rfl, hd⟩
    obtain ⟨j, hj⟩ := numbering_closed hN hi ⟨k, hk⟩ hd'
    exact ⟨e.target, d, j, hd', ⟨rfl, test_ofSource.mp htest⟩, hj, hv.get hj ▸ hP⟩
  · rintro ⟨target, d, j, hd, hx, hj, hP⟩
    obtain ⟨e, he, hkey, rfl, hde⟩ := Table.mem_dests.mp hd
    exact ⟨_, ⟨⟨e, he, rfl⟩, hkey, test_ofSource.mpr hx.2⟩, j,
      List.mem_map.mpr ⟨d, hde, hv.get hj⟩, hP⟩

end Wired

end Multitouch.Automaton
