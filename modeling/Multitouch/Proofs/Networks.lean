import Mathlib.Data.Nat.Basic
import Mathlib.Logic.Relation
import Mathlib.Order.Basic
import Mathlib.Tactic.ByContra
import Mathlib.Tactic.Tauto
import Multitouch.Proofs.Tables
import Multitouch.Network.Basic

/-!
# The arcs of a network

An *arc* leads from a node to a node, either by a link or by a transition for a key and a target.
Building a network only ever adds arcs, and each operation is known by the arcs it adds
(`arc_add`, `arc_link`, `arc_connect`).

A network is *wired* when all of its arcs lead to nodes of it.  `N.Reaches a b` says that `b` is
reached from `a` by links alone.
-/

namespace Multitouch.Network

/-- A node by its number; a number that is no node's has no arcs. -/
def node (N : Network) (n : Nat) : Node :=
  N.nodes[n]?.getD { tag := .finish }

/-- The links of a node. -/
def links (N : Network) (n : Nat) : List Nat :=
  (N.node n).links

/-- Where a node's transitions for a key and a target lead. -/
def dests (N : Network) (n : Nat) (key : Key) (target : String) : List Nat :=
  (N.node n).table.dests key target

/-- `b` is entered from `a`: by a link, or with a key and a target. -/
def Arc (N : Network) (a : Nat) : Option (Key × String) → Nat → Prop
  | none, b => b ∈ N.links a
  | some (key, target), b => b ∈ N.dests a key target

/-- Every arc leads to a node. -/
def Wired (N : Network) : Prop :=
  ∀ a l b, N.Arc a l b → b < N.size

/-- `b` is reached from `a` by links alone. -/
def Reaches (N : Network) : Nat → Nat → Prop :=
  Relation.ReflTransGen fun a b => b ∈ N.links a

theorem node_of_size_le {N : Network} {n : Nat} (h : N.size ≤ n) :
    N.node n = { tag := .finish } := by
  rw [node, Array.getElem?_eq_none h, Option.getD_none]

/-- An arc starts at a node. -/
theorem Arc.source_lt {N : Network} {a b : Nat} {l : Option (Key × String)} (h : N.Arc a l b) :
    a < N.size := by
  by_contra hn
  have hd := node_of_size_le (Nat.le_of_not_lt hn)
  cases l with
  | none => simp [Arc, links, hd] at h
  | some l => exact Table.not_mem_dests_empty (by simpa [Arc, dests, hd] using h)

/-! ### What the operations add -/

@[simp] theorem size_add (N : Network) (tag : Tag) : (N.add tag).size = N.size + 1 :=
  Array.size_push _

theorem size_lt_add (N : Network) (tag : Tag) : N.size < (N.add tag).size := by
  rw [size_add]
  exact Nat.lt_succ_self _

@[simp] theorem size_link (N : Network) (a b : Nat) : (N.link a b).size = N.size :=
  Array.size_modify

@[simp] theorem size_connect (N : Network) (a : Nat) (key : Key) (target : String) (b : Nat) :
    (N.connect a key target b).size = N.size :=
  Array.size_modify

@[simp] theorem size_openGroup (N : Network) (name : Option String) :
    (N.openGroup name).2.size = N.size := by
  cases name <;> rfl

theorem node_add (N : Network) (tag : Tag) (n : Nat) :
    (N.add tag).node n = if n = N.size then { tag } else N.node n := by
  by_cases h : n = N.size
  · simp [node, add, h, size]
  · rw [if_neg h, node, add, Array.getElem?_push, if_neg (by exact h), node]

theorem node_modify (N : Network) (a : Nat) (f : Node → Node) (n : Nat) (ha : a < N.size) :
    node { N with nodes := N.nodes.modify a f } n =
      if n = a then f (N.node a) else N.node n := by
  simp only [node, Array.getElem?_modify]
  by_cases h : a = n
  · subst h
    simp [Array.getElem?_eq_getElem ha]
  · rw [if_neg h, if_neg (Ne.symm h)]

theorem node_openGroup (N : Network) (name : Option String) (n : Nat) :
    (N.openGroup name).2.node n = N.node n := by
  cases name <;> rfl

theorem tag_eq (N : Network) (n : Nat) : N.tag n = (N.node n).tag := by
  unfold tag node
  cases N.nodes[n]? <;> rfl

theorem tag_add (N : Network) (tag : Tag) (n : Nat) :
    (N.add tag).tag n = if n = N.size then tag else N.tag n := by
  rw [tag_eq, node_add, tag_eq]
  split <;> rfl

theorem tag_link {N : Network} {a : Nat} (ha : a < N.size) (b n : Nat) :
    (N.link a b).tag n = N.tag n := by
  rw [tag_eq, link, node_modify N a _ n ha, tag_eq]
  split
  · next h =>
      rw [h]
      split <;> rfl
  · rfl

theorem tag_connect {N : Network} {a : Nat} (ha : a < N.size) (key : Key) (target : String)
    (b n : Nat) : (N.connect a key target b).tag n = N.tag n := by
  rw [tag_eq, connect, node_modify N a _ n ha, tag_eq]
  split
  · next h => rw [h]
  · rfl

theorem tag_openGroup (N : Network) (name : Option String) (n : Nat) :
    (N.openGroup name).2.tag n = N.tag n := by
  cases name <;> rfl

theorem arc_add {N : Network} {tag : Tag} {a b : Nat} {l : Option (Key × String)} :
    (N.add tag).Arc a l b ↔ N.Arc a l b := by
  by_cases h : a = N.size
  · have hn : ¬ N.Arc a l b := fun ha => absurd ha.source_lt (by omega)
    refine iff_of_false (fun ha => ?_) hn
    cases l with
    | none => simp [Arc, links, node_add, h] at ha
    | some l => exact Table.not_mem_dests_empty (by simpa [Arc, dests, node_add, h] using ha)
  · cases l <;> simp only [Arc, links, dests, node_add, if_neg h]

theorem arc_link {N : Network} {a b m n : Nat} {l : Option (Key × String)} (ha : a < N.size) :
    (N.link a b).Arc n l m ↔ N.Arc n l m ∨ n = a ∧ l = none ∧ m = b := by
  rw [link]
  by_cases h : n = a
  · subst h
    cases l with
    | none =>
        simp only [Arc, links, node_modify N n _ n ha, ↓reduceIte]
        -- a link that is there already is not put there twice
        by_cases hb : b ∈ (N.node n).links
        · rw [if_pos hb]
          exact ⟨.inl, fun h => h.elim id fun h => h.2.2 ▸ hb⟩
        · simp [if_neg hb]
    | some l =>
        simp only [Arc, dests, node_modify N n _ n ha, ↓reduceIte]
        by_cases hb : b ∈ (N.node n).links <;> simp [hb]
  · cases l <;> simp [Arc, links, dests, node_modify N a _ n ha, h]

theorem arc_connect {N : Network} {a b m n : Nat} {key : Key} {target : String}
    {l : Option (Key × String)} (ha : a < N.size) :
    (N.connect a key target b).Arc n l m ↔
      N.Arc n l m ∨ n = a ∧ l = some (key, target) ∧ m = b := by
  rw [connect]
  by_cases h : n = a
  · subst h
    cases l with
    | none => simp [Arc, links, node_modify N n _ n ha]
    | some l =>
        simp only [Arc, dests, node_modify N n _ n ha, ↓reduceIte, Table.mem_dests_union,
          Table.mem_dests_single, List.mem_singleton, Option.some.injEq, Prod.ext_iff]
        tauto
  · cases l <;> simp [Arc, links, dests, node_modify N a _ n ha, h]

theorem arc_openGroup {N : Network} {name : Option String} {a b : Nat}
    {l : Option (Key × String)} : (N.openGroup name).2.Arc a l b ↔ N.Arc a l b := by
  cases name <;> rfl

theorem wired_empty : Wired {} := fun _ _ _ h => absurd h.source_lt (Nat.not_lt_zero _)

theorem Wired.add {N : Network} (h : N.Wired) (tag : Tag) : (N.add tag).Wired := fun a l b hb => by
  rw [size_add]
  exact Nat.lt_succ_of_lt (h a l b (arc_add.mp hb))

theorem Wired.link {N : Network} (h : N.Wired) {a b : Nat} (ha : a < N.size) (hb : b < N.size) :
    (N.link a b).Wired := fun x l y hy => by
  rw [size_link]
  rcases (arc_link ha).mp hy with hy | ⟨-, -, rfl⟩
  · exact h x l y hy
  · exact hb

theorem Wired.connect {N : Network} (h : N.Wired) {a b : Nat} {key : Key} {target : String}
    (ha : a < N.size) (hb : b < N.size) : (N.connect a key target b).Wired := fun x l y hy => by
  rw [size_connect]
  rcases (arc_connect ha).mp hy with hy | ⟨-, -, rfl⟩
  · exact h x l y hy
  · exact hb

/-! ### Growing -/

/-- The second network has the nodes and arcs of the first. -/
structure Grows (N N' : Network) : Prop where
  size_le : N.size ≤ N'.size
  tag : ∀ {n}, n < N.size → N'.tag n = N.tag n
  arc : ∀ {a l b}, N.Arc a l b → N'.Arc a l b

theorem Grows.refl (N : Network) : Grows N N :=
  ⟨Nat.le_refl _, fun _ => rfl, id⟩

theorem Grows.trans {N N' N'' : Network} (h : Grows N N') (h' : Grows N' N'') : Grows N N'' :=
  ⟨h.size_le.trans h'.size_le, fun hn => (h'.tag (hn.trans_le h.size_le)).trans (h.tag hn),
    fun ha => h'.arc (h.arc ha)⟩

theorem grows_add (N : Network) (tag : Tag) : Grows N (N.add tag) :=
  ⟨(size_lt_add N tag).le, fun hn => (tag_add N tag _).trans (if_neg hn.ne), arc_add.mpr⟩

theorem grows_link {N : Network} {a : Nat} (ha : a < N.size) (b : Nat) : Grows N (N.link a b) :=
  ⟨(size_link N a b).ge, fun _ => tag_link ha b _, fun h => (arc_link ha).mpr (.inl h)⟩

theorem grows_connect {N : Network} {a : Nat} (ha : a < N.size) (key : Key) (target : String)
    (b : Nat) : Grows N (N.connect a key target b) :=
  ⟨(size_connect N a key target b).ge, fun _ => tag_connect ha key target b _,
    fun h => (arc_connect ha).mpr (.inl h)⟩

theorem grows_openGroup (N : Network) (name : Option String) : Grows N (N.openGroup name).2 :=
  ⟨(size_openGroup N name).ge, fun _ => tag_openGroup N name _, arc_openGroup.mpr⟩

end Multitouch.Network
