import Mathlib.Data.Fintype.Card
import Multitouch.Automaton.Numbering
import Multitouch.Proofs.Networks

/-!
# The numbering numbers all that is reached

The order of the nodes found and the table of their numbers say the same (`Inverse`), so no node
is found twice and no more nodes are found than there are (`order_size_le`).  Nodes are only ever
appended to the order.  So the search, which goes once through all places that the order can have,
comes to every node that is found, and in the end every destination of a node that is found has
been found itself (`run_closed`).
-/

namespace Multitouch

/-- Where the edges of a cell lead. -/
def Cell.dests (cell : Cell) : List Nat :=
  cell.table.edges.flatMap (·.dests)

namespace Numbering

/-- The numbers of the nodes are their places in the order. -/
structure Inverse (size : Nat) (v : Numbering) : Prop where
  size : v.number.size = size
  iff : ∀ n i : Nat, v.number[n]? = some (some i) ↔ v.order[i]? = some n

/-- The node has been found. -/
def Has (v : Numbering) (n : Nat) : Prop :=
  ∃ i : Nat, v.order[i]? = some n

/-- All that has been found keeps its place. -/
def Extends (v v' : Numbering) : Prop :=
  ∀ i n : Nat, v.order[i]? = some n → v'.order[i]? = some n

variable {size : Nat} {v v' : Numbering}

theorem Extends.has (h : Extends v v') {n : Nat} : v.Has n → v'.Has n := by
  rintro ⟨i, hi⟩
  exact ⟨i, h i n hi⟩

theorem Extends.trans {v'' : Numbering} (h : Extends v v') (h' : Extends v' v'') :
    Extends v v'' :=
  fun i n hi => h' i n (h i n hi)

/-- A node's number is its place. -/
theorem Inverse.get (h : Inverse size v) {n i : Nat} (hi : v.order[i]? = some n) :
    v.get n = i := by
  rw [Numbering.get, (h.iff n i).mpr hi]

/-- Only nodes are found. -/
theorem Inverse.lt (h : Inverse size v) {n : Nat} (hn : v.Has n) : n < size := by
  obtain ⟨i, hi⟩ := hn
  rw [← h.size]
  exact (Array.getElem?_eq_some_iff.mp ((h.iff n i).mpr hi)).1

theorem order_size_le (h : Inverse size v) : v.order.size ≤ size := by
  have hmem : ∀ i : Fin v.order.size, v.order[i.val]? = some v.order[i] := fun i =>
    Array.getElem?_eq_getElem i.isLt
  let place (i : Fin v.order.size) : Fin size := ⟨v.order[i], h.lt ⟨i, hmem i⟩⟩
  have hinj : Function.Injective place := by
    intro i j hij
    have hv : v.order[i] = v.order[j] := congrArg Fin.val hij
    have hi := (h.iff _ _).mpr (hmem i)
    rw [hv, (h.iff _ _).mpr (hmem j)] at hi
    exact Fin.ext (Option.some.inj (Option.some.inj hi)).symm
  simpa using Fintype.card_le_of_injective place hinj

/-! ### Finding nodes -/

/-- What happens when a node is to be found: it gets the next number, or it has one already. -/
theorem find_cases (h : Inverse size v) {n : Nat} (hn : n < size) :
    v.Has n ∧ v.find n = v ∨
      ¬ v.Has n ∧ v.find n =
        ⟨v.order.push n, v.number.setIfInBounds n (some v.order.size)⟩ := by
  have hlt : n < v.number.size := h.size ▸ hn
  have hr : v.number[n]? = some v.number[n] := Array.getElem?_eq_getElem hlt
  unfold find
  cases hm : v.number[n] with
  | none =>
      refine .inr ⟨?_, by simp only [hr, hm]⟩
      rintro ⟨i, hi⟩
      have := (h.iff n i).mpr hi
      rw [hr, hm] at this
      cases this
  | some i => exact .inl ⟨⟨i, (h.iff n i).mp (hr.trans (congrArg some hm))⟩, by simp only [hr, hm]⟩

theorem find_inverse (h : Inverse size v) {n : Nat} (hn : n < size) : Inverse size (v.find n) := by
  rcases find_cases h hn with ⟨-, he⟩ | ⟨hnot, he⟩
  · rwa [he]
  · rw [he]
    refine ⟨(Array.size_setIfInBounds).trans h.size, fun m i => ?_⟩
    rw [Array.getElem?_push]
    -- only the entry of `n` and only the last place of the order are new
    by_cases hm : m = n
    · subst hm
      rw [Array.getElem?_setIfInBounds_self_of_lt (h.size ▸ hn)]
      by_cases hi : i = v.order.size
      · simp [hi]
      · rw [if_neg hi]
        exact iff_of_false (fun e => hi (Option.some.inj (Option.some.inj e)).symm)
          (fun e => hnot ⟨i, e⟩)
    · rw [Array.getElem?_setIfInBounds_ne (Ne.symm hm), h.iff]
      by_cases hi : i = v.order.size
      · rw [if_pos hi, hi, Array.getElem?_eq_none le_rfl]
        exact iff_of_false nofun fun e => hm (Option.some.inj e).symm
      · rw [if_neg hi]

theorem find_extends (h : Inverse size v) {n : Nat} (hn : n < size) : Extends v (v.find n) := by
  rcases find_cases h hn with ⟨-, he⟩ | ⟨-, he⟩
  · rw [he]
    exact fun _ _ hi => hi
  · rw [he]
    intro i m hi
    rw [Array.getElem?_push, if_neg (Array.getElem?_eq_some_iff.mp hi).1.ne]
    exact hi

theorem find_has (h : Inverse size v) {n : Nat} (hn : n < size) : (v.find n).Has n := by
  rcases find_cases h hn with ⟨hh, he⟩ | ⟨-, he⟩
  · rwa [he]
  · rw [he]
    exact ⟨v.order.size, Array.getElem?_push_size⟩

theorem foldl_find {ns : List Nat} : ∀ {v : Numbering}, Inverse size v → (∀ n ∈ ns, n < size) →
    Inverse size (ns.foldl find v) ∧ Extends v (ns.foldl find v) ∧
      ∀ n ∈ ns, (ns.foldl find v).Has n := by
  induction ns with
  | nil => exact fun h _ => ⟨h, fun _ _ hi => hi, fun _ hn => (List.not_mem_nil hn).elim⟩
  | cons n ns ih =>
      intro v h hn
      have hlt := hn n List.mem_cons_self
      obtain ⟨h₁, h₂, h₃⟩ := ih (find_inverse h hlt) fun m hm => hn m (List.mem_cons_of_mem _ hm)
      refine ⟨h₁, (find_extends h hlt).trans h₂, fun m hm => ?_⟩
      rcases List.mem_cons.mp hm with rfl | hm
      · exact h₂.has (find_has h hlt)
      · exact h₃ m hm

/-! ### The search -/

/-- The first `k` nodes in the order have been searched. -/
structure Searched (cells : Array Cell) (k : Nat) (v : Numbering) : Prop where
  inverse : Inverse cells.size v
  closed : ∀ i < k, ∀ n : Nat, v.order[i]? = some n → ∀ cell, cells[n]? = some cell →
    ∀ d ∈ cell.dests, v.Has d

/-- One more place is searched; if it is empty, the order stays as it is, and so do the later
places. -/
theorem Searched.search {cells : Array Cell} {k : Nat} (h : Searched cells k v)
    (hc : ∀ cell ∈ cells, ∀ d ∈ cell.dests, d < cells.size) :
    Searched cells (k + 1) (search cells v k) ∧ Extends v (search cells v k) := by
  unfold Numbering.search
  split
  · next n hn =>
      have hlt : n < cells.size := h.inverse.lt ⟨k, hn⟩
      rw [Array.getElem?_eq_getElem hlt]
      obtain ⟨h₁, h₂, h₃⟩ := foldl_find h.inverse (hc _ (Array.getElem_mem hlt))
      refine ⟨⟨h₁, fun i hi m hm cell hcell d hd => ?_⟩, h₂⟩
      -- a place before `k` was not empty before the search
      have hold : v.order[i]? = some m := by
        have hk := (Array.getElem?_eq_some_iff.mp hn).1
        have hi' : i < v.order.size := (Nat.le_of_lt_succ hi).trans_lt hk
        rw [← hm, Array.getElem?_eq_getElem hi']
        exact (h₂ i _ (Array.getElem?_eq_getElem hi')).symm
      rcases Nat.lt_succ_iff_lt_or_eq.mp hi with hi | rfl
      · exact h₂.has (h.closed i hi m hold cell hcell d hd)
      · obtain rfl : n = m := Option.some.inj (hn.symm.trans hold)
        rw [Array.getElem?_eq_getElem hlt] at hcell
        exact h₃ d (Option.some.inj hcell ▸ hd)
  · next hn =>
      refine ⟨⟨h.inverse, fun i hi m hm cell hcell d hd => ?_⟩, fun _ _ hi => hi⟩
      rcases Nat.lt_succ_iff_lt_or_eq.mp hi with hi | rfl
      · exact h.closed i hi m hm cell hcell d hd
      · rw [hn] at hm
        cases hm

theorem Searched.foldl {cells : Array Cell}
    (hc : ∀ cell ∈ cells, ∀ d ∈ cell.dests, d < cells.size) (h : Searched cells 0 v) (k : Nat) :
    Searched cells k ((List.range k).foldl (Numbering.search cells) v) ∧
      Extends v ((List.range k).foldl (Numbering.search cells) v) := by
  induction k with
  | zero => exact ⟨h, fun _ _ hi => hi⟩
  | succ k ih =>
      rw [List.range_succ, List.foldl_append]
      obtain ⟨h₁, h₂⟩ := ih.1.search hc
      exact ⟨h₁, ih.2.trans h₂⟩

/-- The numbering before anything is found. -/
theorem inverse_start (size : Nat) : Inverse size ⟨#[], Array.replicate size none⟩ := by
  refine ⟨Array.size_replicate, fun n i => iff_of_false (fun h => ?_) nofun⟩
  rw [Array.getElem?_replicate] at h
  split at h <;> cases h

theorem run_inverse {cells : Array Cell} {initial : Nat}
    (hc : ∀ cell ∈ cells, ∀ d ∈ cell.dests, d < cells.size) (hi : initial < cells.size) :
    Inverse cells.size (run cells initial) :=
  (Searched.foldl hc ⟨find_inverse (inverse_start _) hi, nofun⟩ cells.size).1.inverse

/-- At first only the initial node is found. -/
theorem order_start {size initial : Nat} (hi : initial < size) :
    (find ⟨#[], Array.replicate size none⟩ initial).order = #[initial] := by
  rcases find_cases (inverse_start size) hi with ⟨⟨i, hh⟩, -⟩ | ⟨-, he⟩
  · cases hh
  · rw [he]
    rfl

/-- The initial node gets the number `0`. -/
theorem run_initial {cells : Array Cell} {initial : Nat}
    (hc : ∀ cell ∈ cells, ∀ d ∈ cell.dests, d < cells.size) (hi : initial < cells.size) :
    (run cells initial).order[0]? = some initial := by
  have hstart : Searched cells 0 (find ⟨#[], Array.replicate cells.size none⟩ initial) :=
    ⟨find_inverse (inverse_start _) hi, nofun⟩
  refine (Searched.foldl hc hstart cells.size).2 0 initial ?_
  rw [order_start hi]
  rfl

/-- **What a node that is found leads to is found.** -/
theorem run_closed {cells : Array Cell} {initial : Nat}
    (hc : ∀ cell ∈ cells, ∀ d ∈ cell.dests, d < cells.size) (hi : initial < cells.size)
    {n d : Nat} {cell : Cell} (hn : (run cells initial).Has n) (hcell : cells[n]? = some cell)
    (hd : d ∈ cell.dests) : (run cells initial).Has d := by
  have h := (Searched.foldl hc ⟨find_inverse (inverse_start _) hi, nofun⟩ cells.size).1
  obtain ⟨i, hin⟩ := hn
  -- the order has no more places than there are nodes, so all of them have been searched
  have hlt : i < cells.size :=
    (Array.getElem?_eq_some_iff.mp hin).1.trans_le (order_size_le (run_inverse hc hi))
  exact h.closed i hlt n hin cell hcell d hd

end Numbering

end Multitouch
