import Multitouch.Proofs.Automaton.States
import Multitouch.Proofs.Unrolled

/-!
# Every edge leads somewhere

A table is made from single edges by union, in the network as well as in the search for the
closure, so a property of tables that union keeps is a property of every table in the end
(`tables_ofExpressions`).  Two such properties are that every row has an edge, and that every edge
has a destination.  An automaton with the second cannot follow an edge without entering a state, so
that a step enters no state exactly if it reports no tag (`step_states_eq_nil`).
-/

namespace Multitouch

/-- Every edge of the table has a destination. -/
def Table.Leading (t : Table) : Prop :=
  ∀ e ∈ t.edges, e.dests ≠ []

theorem Table.Leading.union {s t : Table} (hs : s.Leading) (ht : t.Leading) :
    (s.union t).Leading :=
  fun e he => by
    rcases Table.of_mem_edges_union he with he | ⟨f, hf, hdests⟩
    · exact hs e he
    · exact hdests ▸ Edge.join_ne_nil (ht f hf)

theorem Table.leading_empty : Table.empty.Leading := nofun

theorem Table.leading_single (key : Key) (target : String) (b : Nat) :
    (single ⟨key, target, [b]⟩).Leading := by
  rw [Leading, edges_single]
  exact List.forall_mem_singleton.mpr (List.cons_ne_nil b [])

/-! ### The tables of a network -/

namespace Network

/-- All tables of the network have a property. -/
def Tables (P : Table → Prop) (N : Network) : Prop :=
  ∀ n, P (N.node n).table

theorem tables_modify {P : Table → Prop} {N : Network} {a : Nat} {f : Node → Node}
    (hN : N.Tables P) (hf : ∀ node, P node.table → P (f node).table) :
    Tables P { N with nodes := N.nodes.modify a f } := by
  intro n
  rcases Nat.lt_or_ge a N.size with ha | ha
  · rw [node_modify N a f n ha]
    split
    · exact hf _ (hN a)
    · exact hN n
  · have hnodes : N.nodes.modify a f = N.nodes :=
      Array.ext_getElem? fun i => by
        rw [Array.getElem?_modify]
        split
        · next h => rw [← h, Array.getElem?_eq_none ha, Option.map_none]
        · rfl
    -- a change to a node that is not there changes nothing
    rw [hnodes]
    exact hN n

theorem kept_tables {P : Table → Prop} (he : P .empty)
    (hs : ∀ key target b, P (.single ⟨key, target, [b]⟩))
    (hu : ∀ s t, P s → P t → P (s.union t)) : Kept (Tables P) where
  add N tag hN n := by
    rw [node_add]
    split
    · exact he
    · exact hN n
  link N a b hN := tables_modify hN fun node h => by split <;> exact h
  connect N a key target b hN := tables_modify hN fun node h => hu _ _ h (hs key target b)
  openGroup N name hN := by cases name <;> exact hN

end Network

/-! ### The tables of the search -/

namespace Closure

/-- All tables of the search have a property. -/
def Tables (P : Table → Prop) (c : Closure) : Prop :=
  ∀ s, P (c.cell s).table

variable {P : Table → Prop} {c : Closure}

theorem Tables.modify (h : c.Tables P) {n : Nat} {f : Cell → Cell}
    (hf : P (c.cell n).table → P (f (c.cell n)).table) : (c.modify n f).Tables P := by
  intro s
  by_cases hs : s = n
  · subst hs
    rcases Nat.lt_or_ge s c.cells.size with hr | hr
    · rw [cell_modify_self f hr]
      exact hf (h s)
    · rw [cell_of_size_le (by simpa using hr)]
      exact cell_of_size_le hr ▸ h s
  · rw [cell_modify_ne f hs]
    exact h s

section Union

variable (hu : ∀ s t, P s → P t → P (s.union t))

include hu

theorem Tables.inherit (h : c.Tables P) (n m : Nat) : (c.inherit n m).Tables P := by
  have hg : (c.grant n m).Tables P := h.modify fun hn => hu _ _ hn (h m)
  intro s
  rw [inherit_eq, field_awaitAll (·.table) (fun _ _ => rfl) (fun _ _ => rfl)]
  exact hg s

theorem Tables.leave (h : c.Tables P) (n : Nat) : (c.leave n).Tables P := by
  rw [leave_eq]
  refine serveAll_keeps (P := Tables P) (fun d w hd => ?_) (h.modify id)
  have hr : (d.repay w n).Tables P := hd.modify id
  unfold serve
  split
  · exact hr
  · exact hr.inherit hu w n

theorem Tables.step (h : c.Tables P) : c.step.Tables P := by
  have hs := c.step_cases
  generalize c.step = c' at hs
  cases hs with
  | skip => exact h
  | visit =>
      refine Tables.modify ?_ id
      exact h
  | inherit =>
      refine Tables.inherit hu ?_ _ _
      exact h
  | await =>
      intro s
      rw [field_await _ _ _ (·.table) (fun _ _ => rfl) (fun _ _ => rfl)]
      exact h s
  | last =>
      refine Tables.leave hu ?_ _
      exact h
  | back =>
      refine Tables.inherit hu (Tables.leave hu ?_ _) _ _
      exact h
  | idle => exact h
  | root =>
      refine Tables.modify ?_ id
      exact h
  | known => exact h

/-- **What union keeps of tables, the closure keeps.** -/
theorem tables_run (he : P .empty) {N : Network} (hN : N.Tables P) (initial final : Nat) :
    (run N initial final).Tables P := by
  unfold run
  induction work N with
  | zero =>
      intro s
      show P ((start N initial final).cell s).table
      rw [cell_start]
      split
      · exact hN s
      · exact he
  | succ k ih => exact Tables.step hu ih

end Union

/-- What holds of single edges and is kept by union holds of all tables of a pattern's closure. -/
theorem tables_ofExpressions (he : P .empty)
    (hs : ∀ key target b, P (.single ⟨key, target, [b]⟩))
    (hu : ∀ s t, P s → P t → P (s.union t)) (es : List Expression) :
    (run (.ofExpressions es) Network.initial Network.final).Tables P := by
  have hN : (Network.ofExpressions es).Tables P :=
    (Network.kept_tables he hs hu).ofExpressions (fun _ => he) es
  exact tables_run hu he hN _ _

end Closure

/-! ### Edges and steps -/

namespace Automaton

/-- Every edge has a destination. -/
def Leading (A : Automaton) : Prop :=
  ∀ (k : Nat) (s : State), A.states[k]? = some s → ∀ e ∈ s.edges, e.dests ≠ []

theorem leading_ofExpressions (L : Dialect) (es : List Expression) :
    (ofExpressions L es).Leading := by
  have hc := Closure.tables_ofExpressions Table.leading_empty Table.leading_single
    (fun _ _ => .union) es
  intro k s hs e he
  rw [ofExpressions, ofNetwork_state] at hs
  obtain ⟨n, -, rfl⟩ := Option.map_eq_some_iff.mp hs
  rw [edges_renumbered] at he
  obtain ⟨f, hf, rfl⟩ := List.mem_map.mp he
  exact fun hd => hc n f hf (List.map_eq_nil_iff.mp hd)

/-- Each row of each state has an edge. -/
def Filled (A : Automaton) : Prop :=
  ∀ (k : Nat) (s : State), A.states[k]? = some s → s.Filled

theorem filled_renumbered {L : Dialect} {v : Numbering} {tag : Tag} {cell : Cell}
    (h : cell.table.Filled) : (renumbered L v tag cell).Filled := by
  intro key hkey
  obtain ⟨⟨_, ways⟩, hrow, rfl⟩ := List.mem_map.mp hkey
  obtain ⟨row, hmem, rfl⟩ := Keyed.mem_entries_map.mp hrow
  rw [State.row_of_mem hrow]
  simpa using h _ hmem

/-- **No row is without an edge**: rows are made for transitions, and joined with rows that have
edges. -/
theorem filled_ofExpressions (L : Dialect) (es : List Expression) :
    (ofExpressions L es).Filled := by
  have hc := Closure.tables_ofExpressions Table.filled_empty
    (fun _ _ _ => Table.filled_single _) (fun _ _ => .union) es
  intro k s hs
  rw [ofExpressions, ofNetwork_state] at hs
  obtain ⟨n, -, rfl⟩ := Option.map_eq_some_iff.mp hs
  exact filled_renumbered (hc n)

/-- A state that is left enters another. -/
theorem move_snd_ne_nil {s : State} {x : Symbol} {m : Tag × List Nat}
    (hs : ∀ e ∈ s.edges, e.dests ≠ []) (hm : move x s = some m) : m.2 ≠ [] := by
  unfold move at hm
  split at hm
  · cases hm
  · next hne =>
      cases hm
      intro hd
      obtain ⟨e, rest, he⟩ := List.exists_cons_of_ne_nil hne
      have hmatch : e ∈ s.matching x := he ▸ List.mem_cons_self
      exact hs e (State.mem_matching.mp hmatch).1 (List.flatMap_eq_nil_iff.mp hd e hmatch)

variable {A : Automaton} {ids : List Nat} {x : Symbol}

theorem tags_eq_nil : (A.step ids x).tags = [] ↔ (A.known ids).filterMap (move x) = [] := by
  rw [List.eq_nil_iff_forall_not_mem]
  simp only [step, List.mem_eraseDups, List.mem_map]
  constructor
  · exact fun h => List.eq_nil_iff_forall_not_mem.mpr fun m hm => h m.1 ⟨m, hm, rfl⟩
  · rintro h _ ⟨m, hm, -⟩
    rw [h] at hm
    cases hm

/-- **A step enters no state exactly if it reports no tag.** -/
theorem step_states_eq_nil (hA : A.Leading) :
    (A.step ids x).states = [] ↔ (A.step ids x).tags = [] := by
  rw [tags_eq_nil, List.eq_nil_iff_forall_not_mem]
  simp only [step, mem_ascending, List.mem_flatMap]
  constructor
  · intro h
    refine List.eq_nil_iff_forall_not_mem.mpr fun m hm => ?_
    obtain ⟨s, hs, hmove⟩ := List.mem_filterMap.mp hm
    obtain ⟨i, -, hi⟩ := mem_known.mp hs
    obtain ⟨d, rest, hd⟩ := List.exists_cons_of_ne_nil (move_snd_ne_nil (hA i s hi) hmove)
    exact h d ⟨m, hm, hd ▸ List.mem_cons_self⟩
  · rintro h d ⟨m, hm, -⟩
    rw [h] at hm
    cases hm

end Automaton

end Multitouch
