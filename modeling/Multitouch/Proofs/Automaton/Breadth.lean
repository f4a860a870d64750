import Mathlib.Order.Lattice.Nat
import Multitouch.Proofs.Automaton.Exits
import Multitouch.Proofs.Automaton.Numbering

/-!
# Numbers ascend with the distance

A node that is found gets its place in the order when the first of the nodes that lead to it is
searched, and that one stands before it (`Traced`).  When a node has been searched, all that it
leads to has its place.  So a node does not stand before another that is led to from an earlier
place (`run_breadth`).

The same holds of the states that the nodes become.  Hence along the states in order their
*distance* from the initial state, the number of edges of a shortest walk, never falls
(`Ordered.distance_mono`).
-/

namespace Multitouch

namespace Numbering

variable {cells : Array Cell} {size : Nat} {v v' : Numbering}

/-- An edge leads from the node with the number `i` to the one with the number `j`. -/
def Leads (cells : Array Cell) (v : Numbering) (i j : Nat) : Prop :=
  ∃ m n cell, v.order[i]? = some m ∧ v.order[j]? = some n ∧ cells[m]? = some cell ∧
    n ∈ cell.dests

theorem Leads.extends {i j : Nat} (h : Leads cells v i j) (he : Extends v v') :
    Leads cells v' i j := by
  obtain ⟨m, n, cell, hm, hn, hcell, hd⟩ := h
  exact ⟨m, n, cell, he i m hm, he j n hn, hcell, hd⟩

/-- No node has two places. -/
theorem Inverse.place_unique (h : Inverse size v) {i j n : Nat} (hi : v.order[i]? = some n)
    (hj : v.order[j]? = some n) : i = j :=
  (h.get hi).symm.trans (h.get hj)

theorem has_place {i : Nat} (hi : i < v.order.size) : ∃ n, v.order[i]? = some n :=
  ⟨v.order[i], Array.getElem?_eq_getElem hi⟩

theorem place_lt {i n : Nat} (hi : v.order[i]? = some n) : i < v.order.size :=
  (Array.getElem?_eq_some_iff.mp hi).1

/-! ### Where the new nodes come from -/

/-- Whatever is not in its place already is one of the nodes to be found, in a new place. -/
theorem foldl_find_new {ns : List Nat} : ∀ {v : Numbering}, Inverse size v →
    (∀ n ∈ ns, n < size) → ∀ {i m : Nat}, (ns.foldl find v).order[i]? = some m →
      v.order[i]? = some m ∨ m ∈ ns ∧ v.order.size ≤ i := by
  induction ns with
  | nil => exact fun _ _ _ _ hi => .inl hi
  | cons n ns ih =>
      intro v h hn i m hi
      have hlt := hn n List.mem_cons_self
      rcases ih (find_inverse h hlt) (fun m hm => hn m (List.mem_cons_of_mem _ hm)) hi with
        hi | ⟨hm, hsize⟩
      · rcases find_cases h hlt with ⟨-, he⟩ | ⟨-, he⟩
        · exact .inl (he ▸ hi)
        · rw [he, Array.getElem?_push] at hi
          split at hi
          · next hnew => exact .inr ⟨Option.some.inj hi ▸ List.mem_cons_self, hnew.ge⟩
          · exact .inl hi
      · refine .inr ⟨List.mem_cons_of_mem _ hm, ?_⟩
        rcases find_cases h hlt with ⟨-, he⟩ | ⟨-, he⟩
        · exact he ▸ hsize
        · rw [he, Array.size_push] at hsize
          exact (Nat.le_succ _).trans hsize

/-- Whatever has been found, but for the first node, was found from one of the first `k` nodes,
and from one before it. -/
def Traced (cells : Array Cell) (k : Nat) (v : Numbering) : Prop :=
  ∀ i < v.order.size, 0 < i → ∃ p < k, p < i ∧ Leads cells v p i

theorem Traced.search {k : Nat} (hc : ∀ cell ∈ cells, ∀ d ∈ cell.dests, d < cells.size)
    (h : Searched cells k v) (ht : Traced cells k v) : Traced cells (k + 1) (search cells v k) := by
  have he := (h.search hc).2
  intro i hi hpos
  obtain ⟨m, hm⟩ := has_place hi
  have hnew : v.order[i]? = some m ∨
      ∃ n cell, v.order[k]? = some n ∧ cells[n]? = some cell ∧ m ∈ cell.dests ∧
        v.order.size ≤ i := by
    unfold Numbering.search at hm
    split at hm
    · next n hn =>
        rw [Array.getElem?_eq_getElem (h.inverse.lt ⟨k, hn⟩)] at hm
        have hlt := Array.getElem_mem (h.inverse.lt ⟨k, hn⟩)
        exact (foldl_find_new h.inverse (hc _ hlt) hm).imp_right fun ⟨hd, hsize⟩ =>
          ⟨n, _, hn, Array.getElem?_eq_getElem (h.inverse.lt ⟨k, hn⟩), hd, hsize⟩
    · exact .inl hm
  rcases hnew with hold | ⟨n, cell, hn, hcell, hd, hsize⟩
  · obtain ⟨p, hp, hpi, hlead⟩ := ht i (place_lt hold) hpos
    exact ⟨p, Nat.lt_succ_of_lt hp, hpi, hlead.extends he⟩
  · have hlt : k < i := (place_lt hn).trans_le hsize
    exact ⟨k, Nat.lt_succ_self k, hlt, n, m, cell, he k n hn, hm, hcell, hd⟩

/-! ### The search -/

/-- The numbering when the first `k` places have been searched. -/
def upTo (cells : Array Cell) (initial k : Nat) : Numbering :=
  (List.range k).foldl (search cells) (find ⟨#[], Array.replicate cells.size none⟩ initial)

theorem upTo_succ (cells : Array Cell) (initial k : Nat) :
    upTo cells initial (k + 1) = search cells (upTo cells initial k) k := by
  rw [upTo, List.range_succ, List.foldl_append]
  rfl

section Search

variable {initial : Nat} (hc : ∀ cell ∈ cells, ∀ d ∈ cell.dests, d < cells.size)
  (hi : initial < cells.size)
include hc hi

theorem searched_upTo (k : Nat) : Searched cells k (upTo cells initial k) :=
  (Searched.foldl hc ⟨find_inverse (inverse_start _) hi, nofun⟩ k).1

theorem extends_upTo {k l : Nat} (h : k ≤ l) :
    Extends (upTo cells initial k) (upTo cells initial l) := by
  induction l, h using Nat.le_induction with
  | base => exact fun _ _ hi => hi
  | succ l _ ih =>
      rw [upTo_succ]
      exact ih.trans ((searched_upTo hc hi l).search hc).2

theorem traced_upTo (k : Nat) : Traced cells k (upTo cells initial k) := by
  induction k with
  | zero =>
      intro i hlt hpos
      have hone : (upTo cells initial 0).order.size = 1 := congrArg Array.size (order_start hi)
      rw [hone] at hlt
      exact absurd hlt (Nat.not_lt.mpr hpos)
  | succ k ih =>
      rw [upTo_succ]
      exact ih.search hc (searched_upTo hc hi k)

theorem run_traced : Traced cells cells.size (run cells initial) :=
  traced_upTo hc hi cells.size

/-- **A node that is led to from an earlier place does not stand later.** -/
theorem run_breadth {i j q : Nat} (hlead : Leads cells (run cells initial) q j) (hpos : 0 < i)
    (hij : i ≤ j) : ∃ p ≤ q, Leads cells (run cells initial) p i := by
  have hinverse : Inverse cells.size (run cells initial) := run_inverse hc hi
  obtain ⟨m, n, cell, hm, hn, hcell, hd⟩ := hlead
  let v := upTo cells initial (q + 1)
  have hv : Searched cells (q + 1) v := searched_upTo hc hi (q + 1)
  have ht : Traced cells (q + 1) v := traced_upTo hc hi (q + 1)
  have he : Extends v (run cells initial) := extends_upTo hc hi
    ((place_lt hm).trans_le (order_size_le hinverse))
  -- what a place of `v` leads to has a place in `v`, if that place has been searched
  have hclosed : ∀ {p s : Nat}, p < q + 1 → p < v.order.size →
      Leads cells (run cells initial) p s → s < v.order.size := by
    rintro p s hpq hp ⟨m, n, cell, hm, hn, hcell, hd⟩
    obtain ⟨m', hm'⟩ := has_place hp
    obtain rfl : m' = m := Option.some.inj ((he p m' hm').symm.trans hm)
    obtain ⟨t, ht⟩ := hv.closed p hpq m' hm' cell hcell n hd
    exact hinverse.place_unique (he t n ht) hn ▸ place_lt ht
  have hsize : 0 < v.order.size := by
    have hone : (upTo cells initial 0).order[0]? = some initial := by
      rw [upTo, List.range_zero, List.foldl_nil, order_start hi]
      rfl
    exact place_lt (extends_upTo hc hi (Nat.zero_le _) 0 initial hone)
  -- otherwise the first node beyond `v` is led to from a place of `v` that has been searched
  have hq : q < v.order.size := by
    by_contra hle
    have hle := Nat.le_of_not_lt hle
    obtain ⟨p, -, hp, hlead⟩ := run_traced hc hi v.order.size (hle.trans_lt (place_lt hm)) hsize
    exact Nat.lt_irrefl _ (hclosed (Nat.lt_succ_of_le (hp.le.trans hle)) hp hlead)
  have hj : j < v.order.size := hclosed (Nat.lt_succ_self q) hq ⟨m, n, cell, hm, hn, hcell, hd⟩
  obtain ⟨p, hp, -, hlead⟩ := ht i (hij.trans_lt hj) hpos
  exact ⟨p, Nat.le_of_lt_succ hp, hlead.extends he⟩

end Search

end Numbering

/-! ### Walks -/

namespace Automaton

/-- A walk of so many edges leads from the initial state to the state. -/
inductive Walk (A : Automaton) : Nat → Nat → Prop where
  | start : A.Walk 0 initial
  | step {d i j : Nat} : A.Walk d i → A.Next i j → A.Walk (d + 1) j

/-- The number of edges of a shortest walk to a state. -/
noncomputable def distance (A : Automaton) (i : Nat) : Nat :=
  sInf {d | A.Walk d i}

/-- Every state but the initial one is led to from one before it, and what is led to from a state
does not stand before a state that is led to from earlier ones. -/
structure Ordered (A : Automaton) : Prop where
  traced : ∀ i < A.size, 0 < i → ∃ p < i, A.Next p i
  breadth : ∀ {i j q}, A.Next q j → 0 < i → i ≤ j → ∃ p ≤ q, A.Next p i

namespace Ordered

variable {A : Automaton} (hA : A.Ordered)
include hA

/-- Every state is reached. -/
theorem walk : ∀ {i : Nat}, i < A.size → ∃ d, A.Walk d i := by
  intro i
  induction i using Nat.strong_induction_on with
  | h i ih =>
      intro hi
      rcases Nat.eq_zero_or_pos i with rfl | hpos
      · exact ⟨0, .start⟩
      · obtain ⟨p, hp, hnext⟩ := hA.traced i hi hpos
        obtain ⟨d, hd⟩ := ih p hp (hp.trans hi)
        exact ⟨d + 1, hd.step hnext⟩

/-- A state that does not stand after another is reached by a walk that is not longer. -/
theorem walk_le {d j : Nat} (h : A.Walk d j) :
    ∀ {i : Nat}, i ≤ j → ∃ d' ≤ d, A.Walk d' i := by
  induction h with
  | start =>
      intro i hi
      obtain rfl := Nat.le_zero.mp hi
      exact ⟨0, le_rfl, .start⟩
  | @step d q j _ hnext ih =>
      intro i hij
      rcases Nat.eq_zero_or_pos i with rfl | hpos
      · exact ⟨0, Nat.zero_le _, .start⟩
      · obtain ⟨p, hpq, hp⟩ := hA.breadth hnext hpos hij
        obtain ⟨d', hd', hwalk⟩ := ih hpq
        exact ⟨d' + 1, Nat.succ_le_succ hd', hwalk.step hp⟩

/-- **Along the states in order the distance never falls.** -/
theorem distance_mono {i j : Nat} (hij : i ≤ j) (hj : j < A.size) :
    A.distance i ≤ A.distance j := by
  have hshortest : A.Walk (A.distance j) j := Nat.sInf_mem (hA.walk hj)
  obtain ⟨d, hd, hwalk⟩ := hA.walk_le hshortest hij
  have hle : A.distance i ≤ d := Nat.sInf_le hwalk
  exact hle.trans hd

end Ordered

theorem Walk.reached {A : Automaton} {d i : Nat} (h : A.Walk d i) :
    Relation.ReflTransGen A.Next initial i := by
  induction h with
  | start => exact .refl
  | step _ hnext ih => exact ih.tail hnext

/-! ### Automata of networks -/

section Network

variable {L : Dialect} {N : Network} {initial final : Nat} (hN : N.Wired)
  (hi : initial < N.size)
include hN hi

/-- An edge of an automaton is one of the closure. -/
theorem next_iff_dests {k n j : Nat} (hk : (numbering N initial final).order[k]? = some n) :
    (ofNetwork L N initial final).Next k j ↔
      ∃ d ∈ ((Closure.run N initial final).cell n).dests,
        (numbering N initial final).order[j]? = some d := by
  have hoffers := fun key target d => Closure.offers_run hN initial final
    ((numbering_inverse final hN hi).lt ⟨k, hk⟩) (o := some (key, target, d))
  rw [next_iff hN hi hk]
  constructor
  · rintro ⟨t, ht, key, target, d, hd, hj⟩
    exact ⟨d, mem_cell_dests.mpr ⟨key, target, (hoffers key target d).mpr ⟨t, ht, hd⟩⟩, hj⟩
  · rintro ⟨d, hd, hj⟩
    obtain ⟨key, target, hd⟩ := mem_cell_dests.mp hd
    obtain ⟨t, ht, hd⟩ := (hoffers key target d).mp hd
    exact ⟨t, ht, key, target, d, hd, hj⟩

theorem next_iff_leads {k j : Nat} : (ofNetwork L N initial final).Next k j ↔
    Numbering.Leads (Closure.run N initial final).cells (numbering N initial final) k j := by
  constructor
  · intro h
    obtain ⟨s, hs, -⟩ := id h
    obtain ⟨n, hn, -⟩ := exists_node hs
    obtain ⟨d, hd, hj⟩ := (next_iff_dests hN hi hn).mp h
    exact ⟨n, d, _, hn, hj, cell_of_has hN hi ⟨k, hn⟩, hd⟩
  · rintro ⟨n, d, cell, hn, hj, hc, hd⟩
    obtain rfl := Option.some.inj (hc.symm.trans (cell_of_has hN hi ⟨k, hn⟩))
    exact (next_iff_dests hN hi hn).mpr ⟨d, hd, hj⟩

/-- **The states are in the order of a breadth-first search.** -/
theorem ordered_ofNetwork : (ofNetwork L N initial final).Ordered := by
  have hs := Closure.size_run N initial final
  refine ⟨fun i hlt hpos => ?_, fun hnext hpos hij => ?_⟩
  · obtain ⟨n, hn, -⟩ := exists_node (Array.getElem?_eq_getElem hlt)
    obtain ⟨p, -, hp, hlead⟩ := Numbering.run_traced (cell_dests_lt hN) (hs.symm ▸ hi) i
      (Numbering.place_lt hn) hpos
    exact ⟨p, hp, (next_iff_leads hN hi).mpr hlead⟩
  · obtain ⟨p, hp, hlead⟩ := Numbering.run_breadth (cell_dests_lt hN) (hs.symm ▸ hi)
      ((next_iff_leads hN hi).mp hnext) hpos hij
    exact ⟨p, hp, (next_iff_leads hN hi).mpr hlead⟩

end Network

end Automaton

end Multitouch
