/-!
# Values under keys

Entries, each a key and a value, are kept in strictly ascending order of their keys, so that there
is one value at most under each key.  A value is changed in its place; where there is none yet, the
key gets one to be changed.  Two such lists are merged by changing the values of the first one
after the other, as the entries of the second say.
-/

namespace Multitouch

/-- Entries of a key and a value, in strictly ascending order of the keys. -/
structure Keyed (κ α : Type) [LT κ] where
  entries : List (κ × α)
  ascending : entries.Pairwise fun a b => a.1 < b.1

namespace Keyed

variable {κ α β : Type} [LT κ]

/-- No entry. -/
def empty : Keyed κ α := ⟨[], .nil⟩

instance : Inhabited (Keyed κ α) := ⟨empty⟩

/-- One entry. -/
def single (key : κ) (a : α) : Keyed κ α := ⟨[(key, a)], List.pairwise_singleton _ _⟩

/-- There is no key. -/
def isEmpty (m : Keyed κ α) : Bool :=
  m.entries.isEmpty

/-- The keys, in ascending order. -/
def keys (m : Keyed κ α) : List κ :=
  m.entries.map (·.1)

/-- The value under a key, if there is one. -/
def get? [DecidableEq κ] (m : Keyed κ α) (key : κ) : Option α :=
  m.entries.lookup key

/-- The values under the same keys, changed by `f`. -/
def map (f : α → β) (m : Keyed κ α) : Keyed κ β :=
  ⟨m.entries.map fun e => (e.1, f e.2), List.pairwise_map.mpr m.ascending⟩

/-! ### Changing a value -/

section Update

variable [DecidableLT κ] [Inhabited α]

/-- Changes the value under a key by `f`; without one, the default is put there and changed. -/
def put (key : κ) (f : α → α) : List (κ × α) → List (κ × α)
  | [] => [(key, f default)]
  | (k, a) :: s =>
    if key < k then (key, f default) :: (k, a) :: s
    else if k < key then (k, a) :: put key f s
    else (k, f a) :: s

/-- What comes before a key and all entries comes before all entries in the end. -/
theorem lt_of_mem_put {x key : κ} {f : α → α} {s : List (κ × α)} (hkey : x < key)
    (hs : ∀ e ∈ s, x < e.1) : ∀ e ∈ put key f s, x < e.1 := by
  induction s with
  | nil => exact List.forall_mem_singleton.mpr hkey
  | cons e s ih =>
      obtain ⟨hx, hs⟩ := List.forall_mem_cons.mp hs
      unfold put
      split
      · exact List.forall_mem_cons.mpr ⟨hkey, List.forall_mem_cons.mpr ⟨hx, hs⟩⟩
      · split
        · exact List.forall_mem_cons.mpr ⟨hx, ih hs⟩
        · exact List.forall_mem_cons.mpr ⟨hx, hs⟩

variable [Trans (α := κ) (· < ·) (· < ·) (· < ·)]

theorem pairwise_put {key : κ} {f : α → α} {s : List (κ × α)}
    (hs : s.Pairwise fun a b => a.1 < b.1) : (put key f s).Pairwise fun a b => a.1 < b.1 := by
  induction s with
  | nil => exact List.pairwise_singleton _ _
  | cons e s ih =>
      obtain ⟨he, hs⟩ := List.pairwise_cons.mp hs
      unfold put
      split
      · next hlt =>
          have hafter : ∀ b ∈ s, key < b.1 := fun b hb => Trans.trans hlt (he b hb)
          exact List.pairwise_cons.mpr
            ⟨List.forall_mem_cons.mpr ⟨hlt, hafter⟩, List.pairwise_cons.mpr ⟨he, hs⟩⟩
      · split
        · next hlt => exact List.pairwise_cons.mpr ⟨lt_of_mem_put hlt he, ih hs⟩
        · exact List.pairwise_cons.mpr ⟨he, hs⟩

/-- Changes the value under a key by `f`; without one, the default is put there and changed. -/
def update (m : Keyed κ α) (key : κ) (f : α → α) : Keyed κ α :=
  ⟨put key f m.entries, pairwise_put m.ascending⟩

/-- Changes the values of `m` under the keys of `n`, by what `n` has there. -/
def merge (f : α → β → α) (m : Keyed κ α) (n : Keyed κ β) : Keyed κ α :=
  n.entries.foldl (fun m e => m.update e.1 fun a => f a e.2) m

end Update

end Keyed

end Multitouch
