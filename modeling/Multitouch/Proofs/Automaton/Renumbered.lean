import Mathlib.Data.Set.Function
import Multitouch.Proofs.Automaton.Breadth
import Multitouch.Proofs.Automaton.Entered
import Multitouch.Proofs.Language.Tagged
import Multitouch.Proofs.Text.Utf8

/-!
# Automata are closures renumbered

What is found by the search for the nodes to number is what edges of the closure lead to from the
initial node (`comes_iff_has`).  So an automaton is a copy of this part of the closure
(`copies_ofNetwork`), and its states are numbered without gaps, in the order of a breadth-first
search.

In the automaton of a pattern every state but the initial one is entered by an edge, and so has the
tag of a group (`group_of_dest`).  The edges of a state are in order, so that those for one key are
in the order of their targets, and each leads to different states, since joining destination lists
does not repeat any.
-/

namespace Multitouch

/-! ### Destinations are different -/

/-- No edge of the table has a destination twice. -/
def Table.Distinct (t : Table) : Prop :=
  ∀ e ∈ t.edges, e.dests.Nodup

theorem Table.Distinct.dests {t : Table} (h : t.Distinct) (key : Key) (target : String) :
    (t.dests key target).Nodup := by
  rw [Table.dests]
  cases hf : t.find? key target with
  | none => exact List.nodup_nil
  | some ds => exact h ⟨key, target, ds⟩ (mem_edges.mpr hf)

theorem Table.Distinct.union {s t : Table} (hs : s.Distinct) :
    (s.union t).Distinct := by
  intro e he
  rcases of_mem_edges_union he with he | ⟨f, -, hdests⟩
  · exact hs e he
  · exact hdests ▸ Edge.nodup_join (hs.dests _ _)

theorem Closure.distinct_ofExpressions (es : List Expression) :
    (run (.ofExpressions es) Network.initial Network.final).Tables Table.Distinct := by
  have he : Table.Distinct .empty := nofun
  have hs : ∀ key target b, Table.Distinct (.single ⟨key, target, [b]⟩) := by
    intro key target b
    rw [Table.Distinct, Table.edges_single]
    exact List.forall_mem_singleton.mpr (List.nodup_singleton b)
  exact tables_ofExpressions he hs (fun _ _ h _ => h.union) es

/-! ### Copies -/

/-- The node with a number. -/
def Numbering.node (v : Numbering) (k : Nat) : Nat :=
  v.order[k]?.getD 0

theorem Numbering.node_eq {v : Numbering} {k n : Nat} (hk : v.order[k]? = some n) :
    v.node k = n := by
  rw [node, hk, Option.getD_some]

/-- Edges lead from a node to another. -/
def Closure.Comes (c : Closure) : Nat → Nat → Prop :=
  Relation.ReflTransGen fun m n => n ∈ (c.cell m).dests

namespace Automaton

/-- The automaton is a copy of what edges lead to from the node `m` in the closure of a network:
`node` tells what each state is a copy of. -/
structure Copies (N : Network) (c : Closure) (m : Nat) (node : Nat → Nat) (A : Automaton) :
    Prop where
  start : node initial = m
  bijective : Set.BijOn node {k | k < A.size} {n | c.Comes m n}
  tag : ∀ {k s}, A.states[k]? = some s → s.tag = N.tag (node k)
  final : ∀ {k s}, A.states[k]? = some s → s.final = (c.cell (node k)).final
  edges : ∀ {k s}, A.states[k]? = some s →
    s.edges.map (fun e => ⟨e.key, e.target.source, e.dests.map node⟩) =
      (c.cell (node k)).table.edges

section Network

variable {L : Dialect} {N : Network} {initial final : Nat} (hN : N.Wired)
  (hi : initial < N.size)
include hN hi

theorem comes_iff_has {n : Nat} :
    (Closure.run N initial final).Comes initial n ↔ (numbering N initial final).Has n := by
  constructor
  · intro h
    induction h with
    | refl => exact ⟨_, numbering_initial final hN hi⟩
    | tail _ hd ih =>
        obtain ⟨key, target, hd⟩ := mem_cell_dests.mp hd
        exact numbering_closed hN hi ih hd
  · rintro ⟨k, hk⟩
    obtain ⟨s, hs, -⟩ := exists_state (L := fun _ => none) hk
    obtain ⟨d, hwalk⟩ := (ordered_ofNetwork hN hi).walk (Array.getElem?_eq_some_iff.mp hs).1
    induction hwalk generalizing n s with
    | start =>
        obtain rfl := Option.some.inj ((numbering_initial final hN hi).symm.trans hk)
        exact .refl
    | step _ hnext ih =>
        obtain ⟨t, ht, -⟩ := id hnext
        obtain ⟨m, hm, -⟩ := exists_node ht
        obtain ⟨d, hd, hk'⟩ := (next_iff_dests hN hi hm).mp hnext
        obtain rfl := Option.some.inj (hk'.symm.trans hk)
        exact (ih hm t ht).tail hd

/-- A state has the edges of its node. -/
theorem edges_state {k n : Nat} {s : State} (hk : (numbering N initial final).order[k]? = some n)
    (hs : (ofNetwork L N initial final).states[k]? = some s) :
    s.edges.map (fun e => ⟨e.key, e.target.source, e.dests.map (numbering N initial final).node⟩) =
      ((Closure.run N initial final).cell n).table.edges := by
  have hv := numbering_inverse final hN hi
  obtain rfl := Option.some.inj (hs.symm.trans (state_of_node hk))
  rw [edges_renumbered, List.map_map]
  refine (List.map_congr_left fun e he => ?_).trans (List.map_id _)
  -- each destination has a number, and is the node with this number
  have hdests : (e.dests.map (numbering N initial final).get).map
      (numbering N initial final).node = e.dests := by
    rw [List.map_map]
    refine (List.map_congr_left fun d hd => ?_).trans (List.map_id _)
    obtain ⟨j, hj⟩ := numbering_closed hN hi ⟨k, hk⟩ (Table.mem_dests.mpr ⟨e, he, rfl, rfl, hd⟩)
    exact (congrArg _ (hv.get hj)).trans (Numbering.node_eq hj)
  exact congrArg (Edge.mk e.key e.target) hdests

variable (L final) in
/-- **An automaton is a copy of what is reached.** -/
theorem copies_ofNetwork : (ofNetwork L N initial final).Copies N (Closure.run N initial final)
    initial (numbering N initial final).node := by
  have hv := numbering_inverse final hN hi
  have hplace : ∀ {k : Nat}, k < (ofNetwork L N initial final).size →
      (numbering N initial final).order[k]? = some ((numbering N initial final).node k) := by
    intro k hk
    obtain ⟨n, hn, -⟩ := exists_node (Array.getElem?_eq_getElem hk)
    rw [hn, Numbering.node_eq hn]
  have hlt : ∀ {k : Nat} {s : State}, (ofNetwork L N initial final).states[k]? = some s →
      k < (ofNetwork L N initial final).size :=
    fun hs => (Array.getElem?_eq_some_iff.mp hs).1
  refine ⟨Numbering.node_eq (numbering_initial final hN hi), ⟨?maps, ?inj, ?surj⟩, ?_, ?_, ?_⟩
  case maps => exact fun k hk => (comes_iff_has hN hi).mpr ⟨k, hplace hk⟩
  case inj =>
    intro k hk l hl hkl
    exact hv.place_unique (hplace hk) ((hplace hl).trans (congrArg some hkl.symm))
  case surj =>
    intro n hn
    obtain ⟨k, hk⟩ := (comes_iff_has hN hi).mp hn
    obtain ⟨s, hs, -⟩ := exists_state (L := L) hk
    exact ⟨k, hlt hs, Numbering.node_eq hk⟩
  · intro k s hs
    obtain ⟨n, hn, htag⟩ := exists_node hs
    rw [htag, Numbering.node_eq hn]
  · intro k s hs
    rw [Option.some.inj (hs.symm.trans (state_of_node (hplace (hlt hs))))]
    rfl
  · exact fun hs => edges_state hN hi (hplace (hlt hs)) hs

/-- A word that leads to a node leads on along each of its edges, if everything passes. -/
theorem leads_dest {m d : Nat} {u : List (Symbol × Tag)}
    (hm : (Closure.run N initial final).Comes initial m)
    (hu : N.Leads (fun _ => some fun _ => true) initial u m)
    (hd : d ∈ ((Closure.run N initial final).cell m).dests) :
    ∃ x, N.Leads (fun _ => some fun _ => true) initial (u ++ [(x, N.tag d)]) d := by
  obtain ⟨key, target, hd⟩ := mem_cell_dests.mp hd
  have hlt := (numbering_inverse final hN hi).lt ((comes_iff_has hN hi).mp hm)
  obtain ⟨t, ht, ho⟩ := (Closure.offers_run hN initial final hlt
    (o := some (key, target, d))).mp hd
  exact ⟨⟨key, ""⟩, Network.leads_append.mpr
    ⟨m, hu, t, ht, target, d, ho, ⟨rfl, _, rfl, rfl⟩, rfl, rfl⟩⟩

theorem exists_leads {m : Nat} (hm : (Closure.run N initial final).Comes initial m) :
    ∃ u, N.Leads (fun _ => some fun _ => true) initial u m := by
  induction hm with
  | refl => exact ⟨[], rfl⟩
  | tail hm hd ih =>
      obtain ⟨u, hu⟩ := ih
      obtain ⟨x, hx⟩ := leads_dest hN hi hm hu hd
      exact ⟨_, hx⟩

end Network

/-- Whatever an edge leads to has the tag of a group. -/
theorem group_of_next {L : Dialect} {es : List Expression} {i j : Nat} {s : State}
    (h : (ofExpressions L es).Next i j) (hs : (ofExpressions L es).states[j]? = some s) :
    s.tag.OfGroup := by
  have hN := Network.wired_ofExpressions es
  have hi := Network.initial_lt_ofExpressions es
  obtain ⟨t, ht, -⟩ := id h
  obtain ⟨m, hm, -⟩ := exists_node ht
  obtain ⟨n, hn, htag⟩ := exists_node hs
  obtain ⟨d, hd, hj⟩ := (next_iff_dests hN hi hm).mp h
  obtain rfl : d = n := Option.some.inj (hj.symm.trans hn)
  have hcomes := (comes_iff_has hN hi).mpr ⟨i, hm⟩
  obtain ⟨u, hu⟩ := exists_leads hN hi hcomes
  obtain ⟨x, hx⟩ := leads_dest hN hi hcomes hu hd
  have hpart := (Network.leads_ofExpressions es).mp ⟨d, hx⟩
  rw [htag]
  exact Layout.of_mem_part hpart (x, _) (List.mem_append_right u List.mem_cons_self)

end Automaton

/-! ### The states of a pattern -/

namespace Automaton

/-- How the states of an automaton are numbered and tagged, and what their edges are. -/
structure Tidy (A : Automaton) : Prop where
  nonempty : initial < A.size
  start : ∀ {k : Nat} {s : State}, A.states[k]? = some s → (s.tag = .start ↔ k = initial)
  finish : ∀ {k : Nat} {s : State}, A.states[k]? = some s → s.tag ≠ .finish
  reached : ∀ {k : Nat}, k < A.size → Relation.ReflTransGen A.Next initial k
  distance_mono : ∀ {j k : Nat}, j ≤ k → k < A.size → A.distance j ≤ A.distance k
  dests : ∀ {k : Nat} {s : State}, A.states[k]? = some s → ∀ e ∈ s.edges,
    e.dests ≠ [] ∧ e.dests.Nodup ∧ ∀ d ∈ e.dests, d < A.size ∧ d ≠ initial
  rows : ∀ {k : Nat} {s : State}, A.states[k]? = some s → ∀ key ∈ s.keys,
    s.row key ≠ [] ∧ ((s.row key).map (·.target.source)).Pairwise Utf8.Before

namespace Copies

variable {N : Network} {c : Closure} {m : Nat} {node : Nat → Nat} {A : Automaton} {k : Nat}
  {s : State}

theorem nodup_dests (h : A.Copies N c m node) (hc : c.Tables Table.Distinct)
    (hs : A.states[k]? = some s) {e : Edge Guard} (he : e ∈ s.edges) : e.dests.Nodup := by
  have hmem : ⟨e.key, e.target.source, e.dests.map node⟩ ∈ (c.cell (node k)).table.edges :=
    h.edges hs ▸ List.mem_map.mpr ⟨e, he, rfl⟩
  have hnodes : (e.dests.map node).Nodup := hc (node k) _ hmem
  exact hnodes.of_map

/-- The edges for a key are in the order of their targets. -/
theorem pairwise_row (h : A.Copies N c m node) (hs : A.states[k]? = some s) (key : Key) :
    ((s.row key).map (·.target.source)).Pairwise Utf8.Before := by
  have hedges : s.edges.Pairwise fun a b => a.key < b.key ∨ a.key = b.key ∧
      a.target.source < b.target.source :=
    List.pairwise_map.mp (h.edges hs ▸ (c.cell (node k)).table.ascending)
  rw [State.row_eq]
  refine List.pairwise_map.mpr ((hedges.filter _).imp_of_mem fun {a b} ha hb hab => ?_)
  have hkey : a.key = b.key := by
    rw [eq_of_beq (List.mem_filter.mp ha).2, eq_of_beq (List.mem_filter.mp hb).2]
  rcases hab with hlt | ⟨-, hlt⟩
  · exact absurd (hkey ▸ hlt) (Key.lt_irrefl _)
  · exact Utf8.before_iff.mpr hlt

end Copies

/-- The initial state has the tag of the start.  The others are led to, and so have those of
groups. -/
theorem tag_cases {L : Dialect} {es : List Expression} {k : Nat} {s : State}
    (hs : (ofExpressions L es).states[k]? = some s) :
    k = initial ∧ s.tag = .start ∨ k ≠ initial ∧ s.tag.OfGroup := by
  have hN := Network.wired_ofExpressions es
  have hi := Network.initial_lt_ofExpressions es
  by_cases hk : k = initial
  · subst hk
    obtain ⟨n, hn, htag⟩ := exists_node hs
    obtain rfl : n = Network.initial :=
      Option.some.inj (hn.symm.trans (numbering_initial Network.final hN hi))
    exact .inl ⟨rfl, htag.trans (Network.tag_initial es)⟩
  · have hlt : k < (ofExpressions L es).size := (Array.getElem?_eq_some_iff.mp hs).1
    obtain ⟨p, -, hnext⟩ := (ordered_ofNetwork hN hi).traced k hlt (Nat.pos_of_ne_zero hk)
    exact .inr ⟨hk, group_of_next hnext hs⟩

theorem tidy_ofExpressions (L : Dialect) (es : List Expression) : (ofExpressions L es).Tidy := by
  have hN := Network.wired_ofExpressions es
  have hi := Network.initial_lt_ofExpressions es
  have hordered : (ofExpressions L es).Ordered := ordered_ofNetwork hN hi
  have hcopies := copies_ofNetwork L Network.final hN hi
  have hrooted := rooted_ofExpressions L es
  obtain ⟨s, hs, -⟩ := exists_state (L := L) (numbering_initial Network.final hN hi)
  refine
    { nonempty := (Array.getElem?_eq_some_iff.mp hs).1
      start := fun hs => ?_
      finish := fun hs he => ?_
      reached := fun hk => ?_
      distance_mono := hordered.distance_mono
      dests := fun hs e he => ⟨leading_ofExpressions L es _ _ hs e he,
        hcopies.nodup_dests (Closure.distinct_ofExpressions es) hs he, fun d hd => ?_⟩
      rows := fun hs key hkey => ⟨hrooted.filled _ _ hs key hkey, hcopies.pairwise_row hs key⟩ }
  · rcases tag_cases hs with ⟨hk, htag⟩ | ⟨hk, htag⟩
    · exact iff_of_true htag hk
    · exact iff_of_false (fun he => by rwa [he] at htag) hk
  · rcases tag_cases hs with ⟨-, htag⟩ | ⟨-, htag⟩
    · cases htag.symm.trans he
    · rwa [he] at htag
  · obtain ⟨d, hwalk⟩ := hordered.walk hk
    exact hwalk.reached
  · have hnext : (ofExpressions L es).Next _ d := ⟨_, hs, e, he, hd⟩
    exact ⟨hrooted.lt_of_next hnext, hrooted.ne_initial hnext⟩

/-- **Renumbering keeps just what is reached, in the order of a breadth-first search.**  The
automaton of a pattern is a copy of what edges lead to in the closure of its network, with the
tags, keys, targets and destinations there, and with the same final nodes.  The states are numbered
from `0` on, without gaps, so that the distance from `0` never falls.  Only `0` has the tag of the
start, no state has that of the end, and every state is reached from `0`, where nothing leads back
to.  Each edge has destinations, all of them different, and the edges for one key have different
targets, in the order of their bytes. -/
theorem renumbered_ofExpressions (L : Dialect) (es : List Expression) :
    let N := Network.ofExpressions es
    let A := ofExpressions L es
    (∃ node, A.Copies N (Closure.run N Network.initial Network.final) Network.initial node) ∧
      A.Tidy :=
  ⟨⟨_, copies_ofNetwork L Network.final (Network.wired_ofExpressions es)
    (Network.initial_lt_ofExpressions es)⟩, tidy_ofExpressions L es⟩

end Automaton

end Multitouch
