import Mathlib.Algebra.BigOperators.Group.Finset.Basic
import Mathlib.Algebra.GroupWithZero.Nat
import Multitouch.Proofs.Closure.Offers

/-!
# The search ends

What the search has still to do (`left`) is counted by the roots, the links on the path and the
links of the nodes that have not been taken up, and every step does one unit of it (`left_step`).
`work` is that number at the start, so that the search comes to rest after just `work` steps
(`rests_after_iff`), whatever cycles the links make.  When it rests, every node has been left and
nothing is owed (`Searches.ended`).

`after` is the search after a number of steps, and `Searches` is what all of these have in common;
neither asks where the links lead.
-/

namespace Multitouch.Closure

variable {N : Network} {final : Nat}

/-! ### What is left to do -/

/-- The steps that taking up a node makes: one for each of its links, and one to leave it. -/
def cost (cell : Cell) : Nat :=
  if cell.mark = .fresh then cell.links.length + 1 else 0

/-- The steps that are left until the search has come to rest. -/
def left (c : Closure) : Nat :=
  c.roots.length + (c.path.map fun entry => entry.2.length + 1).sum +
    ∑ n ∈ Finset.range c.cells.size, cost (c.cell n)

theorem cost_inherit (c : Closure) (n m s : Nat) :
    cost ((c.inherit n m).cell s) = cost (c.cell s) := by
  rw [cost, cost, mark_inherit, links_inherit]

theorem cost_await (c : Closure) (n m s : Nat) :
    cost ((c.await n m).cell s) = cost (c.cell s) :=
  field_await c n m cost (fun _ _ => rfl) (fun _ _ => rfl) s

/-- Leaving an active node costs nothing that has not been counted with the path. -/
theorem cost_leave {c : Closure} {n : Nat} (hn : (c.cell n).mark = .active) (s : Nat) :
    cost ((c.leave n).cell s) = cost (c.cell s) := by
  rw [cost, cost, links_leave, mark_leave (lt_of_mark (by simp [hn]))]
  split
  · next hs => simp [hs, hn]
  · rfl

/-- What is counted for a fresh node moves to the path when it is taken up. -/
theorem left_visit {c : Closure} {n : Nat} (hn : (c.cell n).mark = .fresh) :
    (c.visit n).left = c.left := by
  have hr : n < c.cells.size := lt_of_mark (by simp [hn])
  have hmem := Finset.mem_range.mpr hr
  have hself : cost ((c.visit n).cell n) = 0 := by
    rw [cost, mark_visit hr, if_pos rfl]
    rfl
  have hrest : ∑ s ∈ (Finset.range c.cells.size).erase n, cost ((c.visit n).cell s) =
      ∑ s ∈ (Finset.range c.cells.size).erase n, cost (c.cell s) :=
    Finset.sum_congr rfl fun s hs => by
      rw [cost, mark_visit hr, if_neg (Finset.ne_of_mem_erase hs), links_visit, cost]
  have hsize : (c.visit n).cells.size = c.cells.size := size_modify c n _
  have hcost : cost (c.cell n) = (c.cell n).links.length + 1 := if_pos hn
  rw [left, left, hsize, ← Finset.add_sum_erase _ _ hmem, hself, hrest,
    ← Finset.add_sum_erase _ (fun s => cost (c.cell s)) hmem, hcost]
  simp only [visit, modify, List.map_cons, List.sum_cons]
  omega

/-- Searches with the same roots and path, and cells of the same cost, have as much left to do. -/
theorem left_congr {c c' : Closure} (hr : c'.roots = c.roots) (hp : c'.path = c.path)
    (hs : c'.cells.size = c.cells.size) (h : ∀ s, cost (c'.cell s) = cost (c.cell s)) :
    c'.left = c.left := by
  simp only [left, hr, hp, hs, h]

theorem left_leave {c : Closure} {n : Nat} (hn : (c.cell n).mark = .active) :
    (c.leave n).left = c.left :=
  left_congr (roots_leave c n) (path_leave c n) (size_leave c n) (cost_leave hn)

theorem left_inherit (c : Closure) (n m : Nat) : (c.inherit n m).left = c.left :=
  left_congr (roots_inherit c n m) (path_inherit c n m) (size_inherit c n m) (cost_inherit c n m)

theorem left_await (c : Closure) (n m : Nat) : (c.await n m).left = c.left :=
  left_congr (roots_await c n m) (path_await c n m) (size_await c n m) (cost_await c n m)

/-- Every node that has not been taken up is still to be started from. -/
def Rooted (c : Closure) : Prop :=
  ∀ s, (c.cell s).mark = .fresh → s ∈ c.roots

/-- Nothing is on the path, and there is no root to take up: a step changes nothing any more. -/
def Rests (c : Closure) : Prop :=
  c.path = [] ∧ c.roots = []

/-- The search rests just when nothing is left to do. -/
theorem left_eq_zero_iff {c : Closure} (hR : c.Rooted) : c.left = 0 ↔ c.Rests := by
  constructor
  · intro h
    simp only [left, Nat.add_eq_zero_iff, List.length_eq_zero_iff] at h
    refine ⟨?_, h.1.1⟩
    cases hp : c.path with
    | nil => rfl
    | cons => simp [hp] at h
  · rintro ⟨hp, hr⟩
    have hc : ∀ s, cost (c.cell s) = 0 := fun s => if_neg fun hf => by
      have := hR s hf
      rw [hr] at this
      cases this
    simp [left, hp, hr, hc]

/-- **Every step does one unit of what is left.** -/
theorem left_step {c : Closure} (hB : Books c none) (hR : c.Rooted) :
    c.step.left = c.left - 1 := by
  have hs := c.step_cases
  generalize c.step = c' at hs
  have pass : ∀ {n m links path}, c.path = (n, m :: links) :: path →
      left { c with path := (n, links) :: path } = c.left - 1 := by
    intro n m links path hp
    simp only [left, hp, cell, List.map_cons, List.sum_cons, List.length_cons]
    omega
  have pop : ∀ {n path}, c.path = (n, []) :: path → left { c with path } = c.left - 1 := by
    intro n path hp
    simp only [left, hp, cell, List.map_cons, List.sum_cons, List.length_nil]
    omega
  have drop : ∀ {n roots}, c.roots = n :: roots → left { c with roots } = c.left - 1 := by
    intro n roots hr
    simp only [left, hr, cell, List.length_cons]
    omega
  cases hs with
  | skip hp => exact pass hp
  | visit hp _ hm =>
      rw [left_visit (by exact hm)]
      exact pass hp
  | inherit hp =>
      rw [left_inherit]
      exact pass hp
  | await hp =>
      rw [left_await]
      exact pass hp
  | last hp =>
      rw [left_leave (by exact hB.top hp)]
      exact pop hp
  | back hp =>
      rw [left_inherit, left_leave (by exact hB.top hp)]
      exact pop hp
  | idle hp hr => rw [(left_eq_zero_iff hR).mpr ⟨hp, hr⟩]
  | root _ hr hm =>
      rw [left_visit (by exact hm)]
      exact drop hr
  | known _ hr => exact drop hr

theorem Rooted.visit {c : Closure} {n : Nat} (hn : n < c.cells.size)
    (h : ∀ s, (c.cell s).mark = .fresh → s = n ∨ s ∈ c.roots) : (c.visit n).Rooted := by
  intro s hs
  rw [mark_visit hn] at hs
  split at hs
  · cases hs
  · next hsn => exact (h s hs).resolve_left hsn

theorem Rooted.leave {c : Closure} {n : Nat} (h : c.Rooted) (hn : n < c.cells.size) :
    (c.leave n).Rooted := by
  intro s hs
  rw [mark_leave hn] at hs
  rw [roots_leave]
  split at hs
  · cases hs
  · exact h s hs

theorem Rooted.inherit {c : Closure} (h : c.Rooted) (n m : Nat) : (c.inherit n m).Rooted := by
  intro s hs
  rw [mark_inherit] at hs
  rw [roots_inherit]
  exact h s hs

theorem Rooted.await {c : Closure} (h : c.Rooted) (n m : Nat) : (c.await n m).Rooted := by
  intro s hs
  rw [mark_await] at hs
  rw [roots_await]
  exact h s hs

/-- **No step loses a node that is to be started from.** -/
theorem Rooted.step {c : Closure} (hB : Books c none) (hR : c.Rooted) : c.step.Rooted := by
  have hs := c.step_cases
  generalize c.step = c' at hs
  -- what is on the path has no part in it
  have on : ∀ path, Rooted { c with path } := fun _ => hR
  cases hs with
  | skip => exact on _
  | @visit n m links path _ _ hm =>
      have hr : m < c.cells.size := lt_of_mark (by simp [hm])
      exact Rooted.visit hr fun s hs => .inr (hR s hs)
  | @inherit n m links path => exact (on ((n, links) :: path)).inherit n m
  | @await n m links path => exact (on ((n, links) :: path)).await n m
  | last hp => exact (on []).leave (hB.top_lt hp)
  | @back n m links path hp =>
      exact ((on ((m, links) :: path)).leave (hB.top_lt hp)).inherit m n
  | idle => exact hR
  | @root n roots _ hr hm =>
      have hn : n < c.cells.size := lt_of_mark (by simp [hm])
      exact Rooted.visit hn fun s hs => List.mem_cons.mp (hr ▸ hR s hs)
  | @known n roots _ hr hm =>
      intro s hs
      refine (List.mem_cons.mp (hr ▸ hR s hs)).resolve_left ?_
      rintro rfl
      exact hm hs

/-! ### Before the first step -/

/-- A node's cell before the first step. -/
theorem cell_start (N : Network) (initial final n : Nat) :
    (start N initial final).cell n =
      if n < N.size then
        { links := N.links n, table := (N.node n).table, final := n == final }
      else ⟨[], .empty, false, .done, [], []⟩ := by
  rw [cell, start, Array.getElem?_mapIdx]
  split
  · next h =>
      have hn : N.nodes[n]? = some N.nodes[n] := Array.getElem?_eq_getElem h
      simp only [Network.links, Network.node, hn, Option.map_some, Option.getD_some]
  · next h => rw [Array.getElem?_eq_none (Nat.le_of_not_lt h), Option.map_none, Option.getD_none]

section Start

variable (N : Network) (initial final : Nat)

theorem size_start : (start N initial final).cells.size = N.size :=
  Array.size_mapIdx

theorem owed_start (s : Nat) : ((start N initial final).cell s).owed = [] := by
  rw [cell_start]
  split <;> rfl

theorem waiting_start (s : Nat) : ((start N initial final).cell s).waiting = [] := by
  rw [cell_start]
  split <;> rfl

theorem links_start (s : Nat) : ((start N initial final).cell s).links = N.links s := by
  rw [cell_start]
  split
  · rfl
  · next h => rw [Network.links, Network.node_of_size_le (Nat.le_of_not_lt h)]

theorem lt_of_mark_start {s : Nat} (h : ((start N initial final).cell s).mark ≠ .done) :
    s < N.size :=
  size_start N initial final ▸ lt_of_mark h

theorem mark_start_ne_active (s : Nat) : ((start N initial final).cell s).mark ≠ .active := by
  rw [cell_start]
  split <;> simp

theorem offers_start {s : Nat} (hs : s < N.size) (o : Option (Key × String × Nat)) :
    ((start N initial final).cell s).Offers o ↔ N.Offers final s o := by
  rw [cell_start, if_pos hs]
  cases o with
  | none => exact beq_iff_eq
  | some o => exact Iff.rfl

/-- At the start nothing is owed and no path has been taken. -/
theorem books_start : Books (start N initial final) none where
  owed_iff s p := by simp [owed_start, creditors, waiting_start]
  owed_nodup s := by simp [owed_start]
  creditors_nodup p := by simp [creditors, waiting_start]
  active_iff s := iff_of_false (mark_start_ne_active N initial final s) List.not_mem_nil
  nodes_nodup := List.nodup_nil
  below l₁ s l₂ hl := absurd (congrArg List.length hl) (by simp [nodes, start])
  fresh s _ := owed_start N initial final s
  held s p hp := by simp [owed_start] at hp
  left n due hl := by cases hl

theorem sound_start : Sound N final (start N initial final) where
  links := links_start N initial final
  offers s o ho := by
    by_cases hs : s < N.size
    · exact ⟨s, .refl, (offers_start N initial final hs o).mp ho⟩
    · rw [cell_start, if_neg hs] at ho
      cases o with
      | none => cases ho
      | some o => exact absurd ho Table.not_mem_dests_empty
  owed s p hp := by simp [owed_start] at hp
  chain := .nil
  ahead s links h := absurd h List.not_mem_nil

theorem rooted_start : (start N initial final).Rooted := fun s hs =>
  List.mem_cons_of_mem _ (List.mem_range.mpr
    (lt_of_mark_start N initial final (s := s) (by simp [hs])))

end Start

/-- A fold that adds up a list, by the numbers of its members. -/
theorem foldl_add_eq_sum {α : Type} (g : α → Nat) (d : α) (l : List α) (k : Nat) :
    l.foldl (fun n a => n + g a) k = k + ∑ i ∈ Finset.range l.length, g (l[i]?.getD d) := by
  induction l generalizing k with
  | nil => simp
  | cons a l ih =>
      rw [List.foldl_cons, ih, List.length_cons, Finset.sum_range_succ']
      simp only [List.getElem?_cons_succ, List.getElem?_cons_zero, Option.getD_some]
      omega

theorem left_start (N : Network) (initial final : Nat) :
    (start N initial final).left = work N := by
  have hcost : ∀ n ∈ Finset.range N.size,
      cost ((start N initial final).cell n) = (N.links n).length + 1 := by
    intro n hn
    rw [cell_start, if_pos (Finset.mem_range.mp hn)]
    rfl
  have hwork : work N = 2 * N.size + 1 + ∑ n ∈ Finset.range N.size, (N.links n).length := by
    rw [work, ← Array.foldl_toList, foldl_add_eq_sum _ { tag := .finish }, Array.length_toList]
    simp only [Array.getElem?_toList]
    rfl
  rw [left, size_start, Finset.sum_congr rfl hcost, Finset.sum_add_distrib, hwork]
  simp only [start, List.length_cons, List.length_range, List.map_nil, List.sum_nil,
    Finset.sum_const, Finset.card_range, Nat.nsmul_eq_mul, Nat.mul_one]
  omega

/-! ### A whole search -/

@[simp] theorem size_step (c : Closure) : c.step.cells.size = c.cells.size := by
  have hs := c.step_cases
  generalize c.step = c' at hs
  cases hs with
  | skip | idle | known => rfl
  | visit | root => exact size_modify _ _ _
  | inherit => exact size_inherit _ _ _
  | await => exact size_await _ _ _
  | last => exact size_leave _ _
  | back => exact (size_inherit _ _ _).trans (size_leave _ _)

/-- What every step of the search for the closure of `N` keeps. -/
structure Searches (N : Network) (final : Nat) (c : Closure) : Prop where
  size : c.cells.size = N.size
  books : Books c none
  sound : Sound N final c
  rooted : c.Rooted

theorem Searches.step {c : Closure} (h : Searches N final c) : Searches N final c.step where
  size := (size_step c).trans h.size
  books := books_step h.books
  sound := h.sound.step h.books
  rooted := h.rooted.step h.books

/-- When the search rests, every node has been left and nothing is owed. -/
theorem Searches.ended {c : Closure} (h : Searches N final c) (hr : c.Rests) (s : Nat) :
    (c.cell s).mark = .done ∧ (c.cell s).owed = [] := by
  obtain ⟨hpath, hroots⟩ := hr
  -- nothing is on the path, so nothing is active or owed
  have hactive : ∀ s, (c.cell s).mark ≠ .active := fun s hs => by
    have := (h.books.active_iff s).mp hs
    simp [nodes, hpath] at this
  refine ⟨?_, List.eq_nil_iff_forall_not_mem.mpr fun p ho => hactive p (h.books.owed_active ho)⟩
  cases hm : (c.cell s).mark with
  | done => rfl
  | active => exact absurd hm (hactive s)
  | fresh =>
      have := h.rooted s hm
      rw [hroots] at this
      cases this

/-- The search for the closure of `N` after `k` steps. -/
def after (N : Network) (initial final k : Nat) : Closure :=
  Nat.repeat step k (start N initial final)

section After

variable (N : Network) (initial final : Nat)

theorem after_succ (k : Nat) : after N initial final (k + 1) = (after N initial final k).step :=
  rfl

theorem searches_after (k : Nat) : Searches N final (after N initial final k) := by
  induction k with
  | zero =>
      exact ⟨size_start N initial final, books_start N initial final, sound_start N initial final,
        rooted_start N initial final⟩
  | succ k ih => exact ih.step

theorem left_after (k : Nat) : (after N initial final k).left = work N - k := by
  induction k with
  | zero => exact left_start N initial final
  | succ k ih =>
      have h := searches_after N initial final k
      rw [after_succ, left_step h.books h.rooted, ih, Nat.sub_sub]

/-- **The search ends**, after one step for each root, each link and each node. -/
theorem rests_after_iff (k : Nat) : (after N initial final k).Rests ↔ work N ≤ k := by
  rw [← left_eq_zero_iff (searches_after N initial final k).rooted, left_after,
    Nat.sub_eq_zero_iff_le]

/-- At the end every node has been left and nothing is owed. -/
theorem run_ends (s : Nat) : ((run N initial final).cell s).mark = .done ∧
    ((run N initial final).cell s).owed = [] :=
  (searches_after N initial final (work N)).ended
    ((rests_after_iff N initial final (work N)).mpr (Nat.le_refl _)) s

theorem size_run : (run N initial final).cells.size = N.size :=
  (searches_after N initial final (work N)).size

end After

end Multitouch.Closure
