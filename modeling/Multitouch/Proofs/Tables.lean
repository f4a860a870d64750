import Mathlib.Data.List.Nodup
import Multitouch.Network.Table
import Multitouch.Proofs.Keyed

/-!
# What a table leads to

The edges of a table ascend, and there is one at most for a key and a target: the one that is found
there (`mem_edges`).  In a union the destinations for a key and a target are joined
(`find?_union`), and so every edge of it is one of the first table or an edge of the second with
what the first leads to before it (`of_mem_edges_union`).

A row of a table could be without an edge.  In a union there is no such row if there is none in the
two tables (`Filled.union`).
-/

namespace Multitouch

/-! ### Destinations -/

namespace Edge

variable {a b : List Nat} {d : Nat}

theorem mem_addDest {x : Nat} : d ∈ addDest a x ↔ d ∈ a ∨ d = x := by
  unfold addDest
  split
  · next hx =>
      refine ⟨.inl, ?_⟩
      rintro (hd | rfl)
      · exact hd
      · exact hx
  · simp

theorem join_cons (x : Nat) : join a (x :: b) = join (addDest a x) b := rfl

theorem mem_join : d ∈ join a b ↔ d ∈ a ∨ d ∈ b := by
  induction b generalizing a with
  | nil => simp [join]
  | cons x b ih => rw [join_cons, ih, mem_addDest, List.mem_cons, or_assoc]

theorem prefix_join (a b : List Nat) : a <+: join a b := by
  induction b generalizing a with
  | nil => exact List.prefix_rfl
  | cons x b ih =>
      have hadd : a <+: addDest a x := by
        unfold addDest
        split
        · exact List.prefix_rfl
        · exact List.prefix_append _ _
      exact hadd.trans (ih _)

theorem join_ne_nil (hb : b ≠ []) : join a b ≠ [] := by
  obtain ⟨d, hd⟩ := List.exists_mem_of_ne_nil b hb
  exact List.ne_nil_of_mem (mem_join.mpr (.inr hd))

/-- What is joined is new, whether or not it is repeated. -/
theorem nodup_join (ha : a.Nodup) : (join a b).Nodup := by
  induction b generalizing a with
  | nil => exact ha
  | cons x b ih =>
      refine ih ?_
      unfold addDest
      split
      · exact ha
      · next hx => exact ha.append (List.nodup_singleton x) (List.disjoint_singleton.mpr hx)

/-! ### Edges in rows -/

variable {α β : Type}

theorem mem_ofRows {rows : Keyed Key (List (α × List Nat))} {e : Edge α} :
    e ∈ ofRows rows ↔ ∃ ways, (e.key, ways) ∈ rows.entries ∧ (e.target, e.dests) ∈ ways := by
  simp only [ofRows, List.mem_flatMap, List.mem_map]
  constructor
  · rintro ⟨⟨key, ways⟩, hrow, ⟨target, dests⟩, hway, rfl⟩
    exact ⟨ways, hrow, hway⟩
  · rintro ⟨ways, hrow, hway⟩
    exact ⟨_, hrow, _, hway, rfl⟩

/-- What is done to each target and each destination list of the rows is done to the edges. -/
theorem ofRows_map (f : α → β) (g : List Nat → List Nat)
    (rows : Keyed Key (List (α × List Nat))) :
    ofRows (rows.map fun ways => ways.map fun way => (f way.1, g way.2)) =
      (ofRows rows).map fun e => ⟨e.key, f e.target, g e.dests⟩ := by
  simp only [ofRows, Keyed.map, List.flatMap_map, List.map_flatMap, List.map_map]
  rfl

/-- Some edge of `s` is for `key` and `target` and has the destination `d`. -/
def Leads (s : List (Edge String)) (key : Key) (target : String) (d : Nat) : Prop :=
  ∃ e ∈ s, e.key = key ∧ e.target = target ∧ d ∈ e.dests

/-- Edges are ordered by key, then by the target's text. -/
def Before (a b : Edge String) : Prop :=
  a.key < b.key ∨ a.key = b.key ∧ a.target < b.target

end Edge

namespace Table

variable {s t : Table} {key : Key} {target : String} {d : Nat}

/-! ### Finding an edge -/

/-- **An edge of a table is the one that is found for its key and its target.** -/
theorem mem_edges {e : Edge String} : e ∈ t.edges ↔ t.find? e.key e.target = some e.dests := by
  simp only [edges, find?, Edge.mem_ofRows, Keyed.mem_entries_map, Option.bind_eq_some_iff]
  constructor
  · rintro ⟨_, ⟨row, hrow, rfl⟩, hway⟩
    exact ⟨row, Keyed.mem_entries_iff.mp hrow, Keyed.mem_entries_iff.mp hway⟩
  · rintro ⟨row, hrow, hway⟩
    exact ⟨_, ⟨row, Keyed.mem_entries_iff.mpr hrow, rfl⟩, Keyed.mem_entries_iff.mpr hway⟩

theorem mem_dests : d ∈ t.dests key target ↔ Edge.Leads t.edges key target d := by
  constructor
  · intro hd
    cases h : t.find? key target with
    | none => simp [dests, h] at hd
    | some ds =>
        rw [dests, h, Option.getD_some] at hd
        exact ⟨⟨key, target, ds⟩, mem_edges.mpr h, rfl, rfl, hd⟩
  · rintro ⟨e, he, rfl, rfl, hd⟩
    rwa [dests, mem_edges.mp he, Option.getD_some]

theorem not_mem_dests_empty : d ∉ empty.dests key target := List.not_mem_nil

theorem edges_single (e : Edge String) : (single e).edges = [e] := rfl

theorem find?_single (e : Edge String) : (single e).find? key target =
    if key = e.key ∧ target = e.target then some e.dests else none := by
  simp only [single, find?, Keyed.get?, Keyed.single, Keyed.lookup_cons, List.lookup_nil]
  by_cases hkey : key = e.key
  · simp [hkey, Keyed.lookup_cons]
  · simp [hkey]

theorem mem_dests_single {e : Edge String} :
    d ∈ (single e).dests key target ↔ e.key = key ∧ e.target = target ∧ d ∈ e.dests := by
  rw [dests, find?_single]
  split_ifs with h
  · simp [h.1, h.2]
  · refine iff_of_false List.not_mem_nil ?_
    rintro ⟨rfl, rfl, -⟩
    exact h ⟨rfl, rfl⟩

/-! ### Unions -/

/-- **In a union the destinations are joined.** -/
theorem find?_union (s t : Table) (key : Key) (target : String) :
    (s.union t).find? key target = match t.find? key target with
      | some ds => some (Edge.join (s.dests key target) ds)
      | none => s.find? key target := by
  have hdefault : ((s.rows.get? key).getD default).get? target = s.find? key target := by
    unfold find?
    cases s.rows.get? key <;> rfl
  simp only [union, find?, Keyed.get?_merge]
  cases t.rows.get? key with
  | none => rfl
  | some row =>
      simp only [Option.bind_some, Keyed.get?_merge, hdefault]
      cases row.get? target <;> rfl

theorem dests_union (s t : Table) (key : Key) (target : String) :
    (s.union t).dests key target = Edge.join (s.dests key target) (t.dests key target) := by
  rw [dests, find?_union, dests.eq_def t]
  cases t.find? key target <;> rfl

theorem mem_dests_union :
    d ∈ (s.union t).dests key target ↔ d ∈ s.dests key target ∨ d ∈ t.dests key target := by
  rw [dests_union, Edge.mem_join]

/-- What a union of tables leads to begins with what the first of them leads to. -/
theorem dests_prefix_union (s t : Table) (key : Key) (target : String) :
    s.dests key target <+: (s.union t).dests key target :=
  dests_union s t key target ▸ Edge.prefix_join _ _

/-- An edge of a union is one of the first table, or has the destinations of one of the second
joined to those in the first. -/
theorem of_mem_edges_union {e : Edge String} (he : e ∈ (s.union t).edges) :
    e ∈ s.edges ∨ ∃ f ∈ t.edges, e.dests = Edge.join (s.dests e.key e.target) f.dests := by
  have hfind := mem_edges.mp he
  rw [find?_union] at hfind
  cases ht : t.find? e.key e.target with
  | none =>
      rw [ht] at hfind
      exact .inl (mem_edges.mpr hfind)
  | some ds =>
      rw [ht] at hfind
      exact .inr ⟨⟨e.key, e.target, ds⟩, mem_edges.mpr ht, (Option.some.inj hfind).symm⟩

/-! ### Rows -/

/-- Each row has an edge. -/
def Filled (t : Table) : Prop :=
  ∀ row ∈ t.rows.entries, row.2.entries ≠ []

theorem filled_empty : empty.Filled := nofun

theorem filled_single (e : Edge String) : (single e).Filled :=
  List.forall_mem_singleton.mpr (List.cons_ne_nil _ _)

theorem Filled.union (hs : s.Filled) (ht : t.Filled) : (s.union t).Filled := by
  refine Keyed.forall_values_merge (P := fun row : Keyed String _ => row.entries ≠ []) hs
    fun row hrow key => ?_
  obtain ⟨⟨target, ds⟩, hway⟩ := List.exists_mem_of_ne_nil _ (ht row hrow)
  have hget := Keyed.get?_merge Edge.join ((s.rows.get? key).getD default) row.2 target
  rw [Keyed.mem_entries_iff.mp hway] at hget
  exact List.ne_nil_of_mem (Keyed.mem_entries_iff.mpr hget)

/-- The edges of a table ascend. -/
theorem ascending (t : Table) : t.edges.Pairwise Edge.Before := by
  refine List.pairwise_flatMap.mpr ⟨fun row hrow => ?_, ?_⟩
  · obtain ⟨ways, -, rfl⟩ := List.mem_map.mp hrow
    exact List.pairwise_map.mpr (ways.2.ascending.imp fun h => .inr ⟨rfl, h⟩)
  · refine List.Pairwise.imp ?_ (t.rows.map (·.entries)).ascending
    intro a b hkey e he f hf
    obtain ⟨_, -, rfl⟩ := List.mem_map.mp he
    obtain ⟨_, -, rfl⟩ := List.mem_map.mp hf
    exact .inl hkey

end Table

end Multitouch
