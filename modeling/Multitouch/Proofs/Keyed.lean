import Mathlib.Data.List.Pairwise
import Mathlib.Tactic.SplitIfs
import Multitouch.Keyed

/-!
# What is found under a key

As the keys ascend, what is found under a key is the value of the only entry with this key
(`mem_entries_iff`).  A change is found under its key and nowhere else (`get?_update`), and what is
found in a merged list is told by what is found in the two lists (`get?_merge`).
-/

namespace Multitouch.Keyed

variable {κ α β : Type} {key : κ}

/-! ### Looking up -/

section Lookup

variable [DecidableEq κ]

theorem lookup_cons (e : κ × α) (s : List (κ × α)) :
    (e :: s).lookup key = if key = e.1 then some e.2 else s.lookup key := by
  rw [List.lookup_cons]
  split_ifs with h
  · rw [beq_iff_eq.mpr h]
  · rw [beq_eq_false_iff_ne.mpr h]

theorem lookup_eq_none {s : List (κ × α)} (h : ∀ e ∈ s, key ≠ e.1) : s.lookup key = none :=
  List.lookup_eq_none_iff.mpr fun e he => by simpa using h e he

end Lookup

variable [LT κ]

theorem map_map {γ : Type} (g : β → γ) (f : α → β) (m : Keyed κ α) :
    (m.map f).map g = m.map fun a => g (f a) := by
  simp only [map, List.map_map]
  rfl

theorem mem_entries_map {f : α → β} {m : Keyed κ α} {b : β} :
    (key, b) ∈ (m.map f).entries ↔ ∃ a, (key, a) ∈ m.entries ∧ f a = b := by
  constructor
  · intro h
    obtain ⟨⟨_, a⟩, ha, he⟩ := List.mem_map.mp h
    cases he
    exact ⟨a, ha, rfl⟩
  · rintro ⟨a, ha, rfl⟩
    exact List.mem_map.mpr ⟨_, ha, rfl⟩

theorem ne_of_lt [Std.Irrefl (α := κ) (· < ·)] {a b : κ} (h : a < b) : a ≠ b := by
  rintro rfl
  exact Std.Irrefl.irrefl (r := (· < ·)) a h

/-- **What is found under a key is the value of the entry with this key.** -/
theorem mem_entries_iff [DecidableEq κ] [Std.Irrefl (α := κ) (· < ·)] {m : Keyed κ α} {a : α} :
    (key, a) ∈ m.entries ↔ m.get? key = some a := by
  obtain ⟨s, hs⟩ := m
  show (key, a) ∈ s ↔ s.lookup key = some a
  induction s with
  | nil => simp
  | cons e s ih =>
      obtain ⟨he, hs⟩ := List.pairwise_cons.mp hs
      rw [List.mem_cons, lookup_cons, ih hs]
      split_ifs with hkey
      · have hrest : s.lookup key = none :=
          lookup_eq_none fun f hf => hkey ▸ ne_of_lt (he f hf)
        rw [hrest]
        constructor
        · rintro (rfl | h)
          · rfl
          · cases h
        · exact fun h => .inl (Prod.ext hkey (Option.some.inj h).symm)
      · simp [Prod.ext_iff, hkey]

/-! ### Changes -/

section Update

variable [DecidableEq κ] [DecidableLT κ] [Inhabited α] [Std.Irrefl (α := κ) (· < ·)]
  [Trans (α := κ) (· < ·) (· < ·) (· < ·)] [Std.Trichotomous (α := κ) (· < ·)]

theorem lookup_put {f : α → α} {s : List (κ × α)} (hs : s.Pairwise fun a b => a.1 < b.1) (k : κ) :
    (put key f s).lookup k =
      if k = key then some (f ((s.lookup key).getD default)) else s.lookup k := by
  induction s with
  | nil => rw [put, lookup_cons, List.lookup_nil, List.lookup_nil, Option.getD_none]
  | cons e s ih =>
      obtain ⟨he, hs⟩ := List.pairwise_cons.mp hs
      unfold put
      split
      · next hlt =>
          -- all keys are greater, so that there is nothing under this one yet
          have hgreater : ∀ b ∈ e :: s, key ≠ b.1 := List.forall_mem_cons.mpr
            ⟨ne_of_lt hlt, fun b hb => ne_of_lt (Trans.trans hlt (he b hb))⟩
          have hnone : (e :: s).lookup key = none := lookup_eq_none hgreater
          rw [lookup_cons (_, _), hnone, Option.getD_none]
      · split
        · next hlt =>
            rw [lookup_cons (_, _), lookup_cons e, lookup_cons e, ih hs, if_neg (ne_of_lt hlt).symm]
            split_ifs with h₁ h₂
            · exact absurd (h₁.symm.trans h₂) (ne_of_lt hlt)
            · rfl
            · rfl
            · rfl
        · next hnot hnot' =>
            obtain rfl := Std.Trichotomous.trichotomous (r := (· < ·)) _ _ hnot hnot'
            rw [lookup_cons (_, _), lookup_cons e, lookup_cons e, if_pos rfl, Option.getD_some]
            split_ifs <;> rfl

/-- **A change is found under its key, and nowhere else.** -/
theorem get?_update (m : Keyed κ α) (f : α → α) (k : κ) :
    (m.update key f).get? k = if k = key then some (f ((m.get? key).getD default)) else m.get? k :=
  lookup_put m.ascending k

/-- **What is found in a merged list** is what was there before, changed if the other has an entry
for the key. -/
theorem get?_merge (f : α → β → α) (m : Keyed κ α) (n : Keyed κ β) (k : κ) :
    (m.merge f n).get? k = match n.get? k with
      | some b => some (f ((m.get? k).getD default) b)
      | none => m.get? k := by
  obtain ⟨s, hs⟩ := n
  show (s.foldl (fun m e => m.update e.1 fun a => f a e.2) m).get? k = match s.lookup k with
    | some b => some (f ((m.get? k).getD default) b)
    | none => m.get? k
  induction s generalizing m with
  | nil => rfl
  | cons e s ih =>
      obtain ⟨he, hs⟩ := List.pairwise_cons.mp hs
      rw [List.foldl_cons, ih _ hs, get?_update, lookup_cons]
      split_ifs with hkey
      · have hrest : s.lookup k = none := lookup_eq_none fun b hb => hkey ▸ ne_of_lt (he b hb)
        rw [hrest, hkey]
      · rfl

/-- What holds of the default, and is kept by a change, holds of all values of a merged list if it
does of those of the first. -/
theorem forall_values_merge {P : α → Prop} {f : α → β → α} {m : Keyed κ α} {n : Keyed κ β}
    (hm : ∀ e ∈ m.entries, P e.2)
    (hf : ∀ e ∈ n.entries, ∀ k, P (f ((m.get? k).getD default) e.2)) :
    ∀ e ∈ (m.merge f n).entries, P e.2 := by
  rintro ⟨k, a⟩ he
  have hget := mem_entries_iff.mp he
  rw [get?_merge] at hget
  cases hn : n.get? k with
  | none =>
      rw [hn] at hget
      exact hm _ (mem_entries_iff.mpr hget)
  | some b =>
      rw [hn] at hget
      cases hget
      exact hf _ (mem_entries_iff.mpr hn) k

end Update

end Multitouch.Keyed
