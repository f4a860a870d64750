import Multitouch.Proofs.Closure.Ends

/-!
# The closure is exact

When the search has come to rest, every node has been left and nothing is owed, so the two bounds
on what a cell offers meet: it offers what the nodes have that are reached by links, and nothing
else (`offers_run`).
-/

namespace Multitouch.Closure

variable {N : Network} {final : Nat}

theorem complete_start (N : Network) (initial final : Nat) :
    Complete N final (start N initial final) none where
  size := size_start N initial final
  own s o hs := (offers_start N initial final hs o).mpr
  settled s hs m hm := by
    -- only what is no node counts as left, and it has no links
    rw [cell_start] at hs
    split at hs
    · cases hs
    · next h =>
        rw [Network.links, Network.node_of_size_le (Nat.le_of_not_lt h)] at hm
        cases hm
  followed := trivial

theorem complete_after (hN : N.Wired) (initial final k : Nat) :
    Complete N final (after N initial final k) none := by
  induction k with
  | zero => exact complete_start N initial final
  | succ k ih =>
      have h := searches_after N initial final k
      exact ih.step h.sound h.books hN

/-- A node offers in the end what the nodes have that are reached from it by links. -/
theorem offers_run (hN : N.Wired) (initial final : Nat) {s : Nat} (hs : s < N.size)
    {o : Option (Key × String × Nat)} :
    ((run N initial final).cell s).Offers o ↔ ∃ t, N.Reaches s t ∧ N.Offers final t o := by
  have hS : Searches N final (run N initial final) := searches_after N initial final (work N)
  have hC : Complete N final (run N initial final) none :=
    complete_after hN initial final (work N)
  obtain ⟨hdone, howed⟩ := run_ends N initial final s
  refine ⟨hS.sound.offers s o, ?_⟩
  rintro ⟨t, ht, ho⟩
  refine hC.settled_offers hdone hs ((Avoids.of_reaches ht).mono fun x hx => ?_) ho
  rw [howed] at hx
  cases hx

/-- **The closure is exact.**  After the search every node has, for each key and target, just the
destinations that the nodes reached from it by links had before, and it is final exactly if the
final node is reached from it. -/
theorem run_exact (hN : N.Wired) (initial final : Nat) {s : Nat} (hs : s < N.size) :
    (∀ key target d, d ∈ ((run N initial final).cell s).table.dests key target ↔
      ∃ t, N.Reaches s t ∧ d ∈ N.dests t key target) ∧
    (((run N initial final).cell s).final = true ↔ N.Reaches s final) := by
  refine ⟨fun key target d => offers_run hN initial final hs (o := some (key, target, d)), ?_⟩
  refine (offers_run hN initial final hs (o := none)).trans ⟨?_, fun h => ⟨final, h, rfl⟩⟩
  rintro ⟨t, ht, rfl⟩
  exact ht

/-- Four nodes with two cycles of links that share the node `1`; only `3` can be left by reading. -/
def overlapping : Network :=
  let nodes := (((({} : Network).add .start).add .finish).add .top).add .top
  let cycles := (((nodes.link 0 1).link 1 0).link 1 2).link 2 1
  (cycles.link 2 3).connect 3 ⟨.press, 1⟩ ".*" 0

theorem run_exact_overlapping :
    overlapping.Wired ∧ 0 ∈ ((run overlapping 0 3).cell 0).table.dests ⟨.press, 1⟩ ".*" ∧
      ((run overlapping 0 3).cell 1).final = true := by
  have hw : overlapping.Wired := by
    refine .connect (.link (.link (.link (.link (.link
      ((((Network.wired_empty.add _).add _).add _).add _) ?_ ?_) ?_ ?_) ?_ ?_) ?_ ?_) ?_ ?_) ?_ ?_
    all_goals decide
  have h₁₃ : overlapping.Reaches 1 3 :=
    .trans (.single (b := 2) (by decide)) (.single (by decide))
  have h₀₃ : overlapping.Reaches 0 3 := .head (b := 1) (by decide) h₁₃
  have hd : overlapping.Arc 3 (some (⟨.press, 1⟩, ".*")) 0 :=
    (Network.arc_connect (by decide)).mpr (.inr ⟨rfl, rfl, rfl⟩)
  exact ⟨hw, ((run_exact hw 0 3 (by decide)).1 _ _ _).mpr ⟨3, h₀₃, hd⟩,
    (run_exact hw 0 3 (by decide)).2.mpr h₁₃⟩

end Multitouch.Closure
