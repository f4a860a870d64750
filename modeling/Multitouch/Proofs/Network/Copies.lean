import Multitouch.Proofs.Automaton.States
import Multitouch.Proofs.Unrolled

/-!
# The copies of groups, and their numbers

Unrolling a pattern makes nodes and starts copies of groups, one after the other, and copies of
groups within these.  What it makes is told by the expression alone (`Expression.parts`): a group
is copied as often as what it is in, and every copy begins with a node of its own.  The copies are
counted in the order they are started; each node is made directly by the innermost copy that is
being laid out, or by none, as the two ends of the network.

A network *records* what has been made (`Records`) if its nodes have the tags of the copies that
made them, where the tag of an unnamed copy is the number of unnamed copies started before it.
Laying out goes from record to record (`makes_lay`), so the count of numbers handed out is the
count of unnamed copies, and that is a sum over the expression (`count_parts`).
-/

namespace Multitouch

/-! ### What is made -/

namespace Repetition

/-- The nodes that an action is unrolled to: there is always one to loop in. -/
def nodes (r : Repetition) : Nat :=
  match r.max with
  | none => Max.max r.min 1
  | some most => Max.max r.min most

/-- The passes that a group is unrolled to: the required ones, and then one that may be repeated
or those that are allowed. -/
def passes (r : Repetition) : Nat :=
  match r.max with
  | none => r.min + 1
  | some most => Max.max r.min most

end Repetition

/-- What is made, one after the other: single nodes, and copies of groups, each of which begins
with a node. -/
inductive Parts where
  | nil
  | node (rest : Parts)
  | copy (name : Option String) (inner rest : Parts)

namespace Parts

def append : Parts → Parts → Parts
  | nil, q => q
  | node p, q => node (p.append q)
  | copy name inner p, q => copy name inner (p.append q)

instance : Append Parts := ⟨append⟩

/-- The same, so many times over. -/
def times (p : Parts) : Nat → Parts
  | 0 => nil
  | k + 1 => p.times k ++ p

/-- The names of the copies, in the order they are started. -/
def names : Parts → List (Option String)
  | nil => []
  | node p => p.names
  | copy name inner p => name :: (inner.names ++ p.names)

/-- Which copy makes each node directly, where all of this is in the copy `c`, if in any, and the
next copy that is started is the one with the number `next`. -/
def makers (c : Option Nat) (next : Nat) : Parts → List (Option Nat)
  | nil => []
  | node p => c :: p.makers c next
  | copy _ inner p =>
    some next :: (inner.makers (some next) (next + 1) ++
      p.makers c (next + 1 + inner.names.length))

end Parts

namespace Expression

mutual

/-- What an expression is unrolled to. -/
def parts : Expression → Parts
  | action a => (Parts.node .nil).times a.repetition.nodes
  | group name body r => .copy name ((rowParts body).times r.passes) .nil
  | options alternatives => choiceParts alternatives

/-- What a pass over the body of a group makes: each member ends in a node of the group. -/
def rowParts : List Expression → Parts
  | [] => .nil
  | e :: es => .node (e.parts ++ rowParts es)

def choiceParts : List Expression → Parts
  | [] => .nil
  | e :: es => e.parts ++ choiceParts es

end

/-- What a whole pattern is unrolled to: the two ends, and the group `top`. -/
def wholeParts (es : List Expression) : Parts :=
  .node (.node (group (some Tag.topName) es .once).parts)

mutual

/-- How many numbers an expression takes. -/
def numbers : Expression → Nat
  | action _ => 0
  | group name body r => (if name = none then 1 else 0) + r.passes * sumNumbers body
  | options alternatives => sumNumbers alternatives

/-- How many numbers expressions take together. -/
def sumNumbers : List Expression → Nat
  | [] => 0
  | e :: es => e.numbers + sumNumbers es

end

end Expression

namespace Parts

/-! ### One part after the other -/

theorem copy_append (name : Option String) (inner p q : Parts) :
    copy name inner p ++ q = copy name inner (p ++ q) := rfl

theorem append_nil (p : Parts) : p ++ nil = p := by
  induction p with
  | nil => rfl
  | node p ih => exact congrArg node ih
  | copy name inner p _ ih => exact congrArg (copy name inner) ih

theorem append_assoc (p q r : Parts) : p ++ q ++ r = p ++ (q ++ r) := by
  induction p with
  | nil => rfl
  | node p ih => exact congrArg node ih
  | copy name inner p _ ih => exact congrArg (copy name inner) ih

theorem times_add (p : Parts) (j k : Nat) : p.times (j + k) = p.times j ++ p.times k := by
  induction k with
  | zero => exact (append_nil _).symm
  | succ k ih => exact (congrArg (· ++ p) ih).trans (append_assoc _ _ _)

theorem names_append (p q : Parts) : (p ++ q).names = p.names ++ q.names := by
  induction p with
  | nil => rfl
  | node p ih => exact ih
  | copy name inner p _ ih =>
      rw [copy_append, names, ih, names, List.cons_append, List.append_assoc]

theorem makers_append (p q : Parts) (c : Option Nat) (next : Nat) :
    (p ++ q).makers c next = p.makers c next ++ q.makers c (next + p.names.length) := by
  induction p generalizing next with
  | nil => rfl
  | node p ih => exact congrArg (c :: ·) (ih next)
  | copy name inner p _ ih =>
      have hlength : next + 1 + inner.names.length + p.names.length =
          next + (name :: (inner.names ++ p.names)).length := by
        simp only [List.length_cons, List.length_append]
        omega
      rw [copy_append, makers, ih, hlength, makers, names, List.cons_append, List.append_assoc]

/-! ### The order in which copies are started -/

/-- Every copy makes a node. -/
theorem mem_makers {p : Parts} {c : Option Nat} {next d : Nat} (hd : next ≤ d)
    (hlt : d < next + p.names.length) : some d ∈ p.makers c next := by
  induction p generalizing c next with
  | nil => exact absurd hlt (Nat.not_lt.mpr hd)
  | node p ih => exact List.mem_cons_of_mem _ (ih hd hlt)
  | copy name inner p ihi ih =>
      rw [names, List.length_cons, List.length_append] at hlt
      rw [makers, List.mem_cons, List.mem_append]
      rcases Nat.eq_or_lt_of_le hd with rfl | hd
      · exact .inl rfl
      · by_cases hinner : d < next + 1 + inner.names.length
        · exact .inr (.inl (ihi hd hinner))
        · exact .inr (.inr (ih (Nat.le_of_not_lt hinner) (by omega)))

/-- Before a copy makes a node, all copies that are started before it have made one. -/
theorem exists_maker_before {p : Parts} {c : Option Nat} {next b d n : Nat}
    (hc : ∀ x, c = some x → x < next) (h : (p.makers c next)[n]? = some (some d))
    (hb : next ≤ b) (hbd : b < d) : ∃ m < n, (p.makers c next)[m]? = some (some b) := by
  induction p generalizing c next n with
  | nil => cases h
  | node p ih =>
      rw [makers] at h ⊢
      cases n with
      | zero =>
          have hd := hc d (Option.some.inj h)
          omega
      | succ n =>
          obtain ⟨m, hm, hmb⟩ := ih hc h hb
          exact ⟨m + 1, Nat.succ_lt_succ hm, hmb⟩
  | copy name inner p ihi ih =>
      rw [makers] at h ⊢
      cases n with
      | zero =>
          have hd := Option.some.inj (Option.some.inj h)
          omega
      | succ n =>
          rcases Nat.eq_or_lt_of_le hb with rfl | hb
          · exact ⟨0, Nat.succ_pos _, rfl⟩
          rw [List.getElem?_cons_succ] at h
          suffices hm : ∃ m < n, (inner.makers (some next) (next + 1) ++
              p.makers c (next + 1 + inner.names.length))[m]? = some (some b) by
            obtain ⟨m, hm, hmb⟩ := hm
            exact ⟨m + 1, Nat.succ_lt_succ hm, hmb⟩
          by_cases hn : n < (inner.makers (some next) (next + 1)).length
          · rw [List.getElem?_append_left hn] at h
            obtain ⟨m, hm, hmb⟩ := ihi (fun x hx => Option.some.inj hx ▸ Nat.lt_succ_self _) h hb
            exact ⟨m, hm, (List.getElem?_append_left (hm.trans hn)).trans hmb⟩
          have hle := Nat.le_of_not_lt hn
          by_cases hinner : b < next + 1 + inner.names.length
          · -- the node is made after all of the inner copies
            obtain ⟨m, hmb⟩ := List.mem_iff_getElem?.mp (mem_makers (c := some next) hb hinner)
            have hm := (List.getElem?_eq_some_iff.mp hmb).1
            exact ⟨m, hm.trans_le hle, (List.getElem?_append_left hm).trans hmb⟩
          · rw [List.getElem?_append_right hle] at h
            obtain ⟨m, hm, hmb⟩ := ih (fun x hx => (hc x hx).trans_le (by omega)) h
              (Nat.le_of_not_lt hinner)
            refine ⟨(inner.makers (some next) (next + 1)).length + m, by omega, ?_⟩
            rw [List.getElem?_append_right (Nat.le_add_right _ _), Nat.add_sub_cancel_left, hmb]

/-! ### How many copies have no name -/

theorem count_times (p : Parts) (k : Nat) :
    (p.times k).names.count none = k * p.names.count none := by
  induction k with
  | zero => exact (Nat.zero_mul _).symm
  | succ k ih => rw [times, names_append, List.count_append, ih, Nat.succ_mul]

end Parts

namespace Expression

mutual

/-- **An expression takes as many numbers as unnamed copies are made.** -/
theorem count_parts : ∀ e : Expression, e.parts.names.count none = e.numbers
  | .action a => by
      rw [parts, Parts.count_times, numbers]
      exact Nat.mul_zero _
  | .group name body r => by
      have h := count_rowParts body
      rw [parts, Parts.names, Parts.names, List.append_nil, List.count_cons, Parts.count_times, h,
        numbers, Nat.add_comm]
      simp only [beq_iff_eq]
  | .options alternatives => by
      rw [parts, numbers]
      exact count_choiceParts alternatives

theorem count_rowParts : ∀ es : List Expression, (rowParts es).names.count none = sumNumbers es
  | [] => rfl
  | e :: es => by
      rw [rowParts, Parts.names, Parts.names_append, List.count_append, count_parts e,
        count_rowParts es, sumNumbers]

theorem count_choiceParts : ∀ es : List Expression,
    (choiceParts es).names.count none = sumNumbers es
  | [] => rfl
  | e :: es => by
      rw [choiceParts, Parts.names_append, List.count_append, count_parts e,
        count_choiceParts es, sumNumbers]

end

theorem count_wholeParts (es : List Expression) :
    (wholeParts es).names.count none = sumNumbers es := by
  show (group (some Tag.topName) es .once).parts.names.count none = _
  rw [count_parts, numbers, if_neg nofun, Nat.zero_add]
  exact Nat.one_mul _

end Expression

namespace Network

/-! ### Records of what has been made -/

/-- The tags of the nodes. -/
def tags (N : Network) : List Tag :=
  N.nodes.toList.map (·.tag)

theorem tags_getElem? (N : Network) (n : Nat) : N.tags[n]? = N.nodes[n]?.map (·.tag) := by
  rw [tags, List.getElem?_map, Array.getElem?_toList]

theorem tags_add (N : Network) (tag : Tag) : (N.add tag).tags = N.tags ++ [tag] := by
  simp [tags, add]

theorem tags_modify (N : Network) (a : Nat) {f : Node → Node}
    (hf : ∀ node, (f node).tag = node.tag) :
    tags { N with nodes := N.nodes.modify a f } = N.tags := by
  refine List.ext_getElem? fun n => ?_
  rw [tags_getElem?, tags_getElem?, Array.getElem?_modify]
  split
  · cases N.nodes[n]? with
    | none => rfl
    | some node => exact congrArg some (hf node)
  · rfl

theorem tags_link (N : Network) (a b : Nat) : (N.link a b).tags = N.tags :=
  tags_modify N a fun node => by split <;> rfl

theorem tags_connect (N : Network) (a : Nat) (key : Key) (target : String) (b : Nat) :
    (N.connect a key target b).tags = N.tags :=
  tags_modify N a fun _ => rfl

theorem tags_openGroup (N : Network) (name : Option String) :
    (N.openGroup name).2.tags = N.tags := by
  cases name <;> rfl

/-- Building does not change the tag of a node. -/
theorem kept_tag (n : Nat) (tag : Tag) : Kept fun N => N.tags[n]? = some tag where
  add N t h := by
    rw [tags_add, List.getElem?_append_left (List.getElem?_eq_some_iff.mp h).1, h]
  link N a b h := (tags_link N a b).symm ▸ h
  connect N a key target b h := (tags_connect N a key target b).symm ▸ h
  openGroup N name h := (tags_openGroup N name).symm ▸ h

/-- The tag of nodes made by a copy, if copies with these names have been started: its name, or
how many copies without a name have been started before it.  The two ends are made by none. -/
inductive Bears (names : List (Option String)) : Option Nat → Tag → Prop where
  | start : Bears names none .start
  | finish : Bears names none .finish
  | named {c : Nat} {name : String} (h : names[c]? = some (some name)) :
      Bears names (some c) (.named name)
  | numbered {c : Nat} (h : names[c]? = some none) :
      Bears names (some c) (.numbered (names.countBefore none c))

theorem Bears.more {names : List (Option String)} {c : Option Nat} {tag : Tag}
    (h : Bears names c tag) (more : List (Option String)) : Bears (names ++ more) c tag := by
  have hmore : ∀ {c : Nat} {name : Option String}, names[c]? = some name →
      c < names.length ∧ (names ++ more)[c]? = some name := fun hc =>
    have hlt := (List.getElem?_eq_some_iff.mp hc).1
    ⟨hlt, (List.getElem?_append_left hlt).trans hc⟩
  cases h with
  | start => exact .start
  | finish => exact .finish
  | named hc => exact .named (hmore hc).2
  | numbered hc =>
      obtain ⟨hlt, hc⟩ := hmore hc
      have htake : (names ++ more).take _ = _ := List.take_append_of_le_length hlt.le
      rw [List.countBefore_eq_count_take, ← htake, ← List.countBefore_eq_count_take]
      exact .numbered hc

/-- Copies with these names have been started, and have made the nodes as told. -/
structure Records (N : Network) (names : List (Option String)) (makers : List (Option Nat)) :
    Prop where
  groups : N.groups = names.count none
  tags : List.Forall₂ (Bears names) makers N.tags

namespace Records

variable {N : Network} {names : List (Option String)} {makers : List (Option Nat)}

theorem same {N' : Network} (h : Records N names makers) (hg : N'.groups = N.groups)
    (ht : N'.tags = N.tags) : Records N' names makers :=
  ⟨hg.trans h.groups, ht.symm ▸ h.tags⟩

theorem add (h : Records N names makers) {c : Option Nat} {tag : Tag} (hc : Bears names c tag) :
    Records (N.add tag) names (makers ++ [c]) where
  groups := h.groups
  tags := by
    rw [tags_add]
    exact List.rel_append h.tags (.cons hc .nil)

/-- A group that is opened is the next copy. -/
theorem openGroup (h : Records N names makers) (name : Option String) :
    Records (N.openGroup name).2 (names ++ [name]) makers ∧
      Bears (names ++ [name]) (some names.length) (N.openGroup name).1 := by
  have htags : List.Forall₂ (Bears (names ++ [name])) makers N.tags :=
    h.tags.imp fun _ _ hb => hb.more [name]
  have hlast : (names ++ [name])[names.length]? = some name := by simp
  cases name with
  | some name => exact ⟨⟨by simp [Network.openGroup, h.groups], htags⟩, .named hlast⟩
  | none =>
      have hcount : (names ++ [none]).countBefore none names.length = N.groups := by
        rw [List.countBefore_eq_count_take, List.take_left, h.groups]
      refine ⟨⟨by simp [Network.openGroup, h.groups], htags⟩, ?_⟩
      have hb := Bears.numbered hlast
      rwa [hcount] at hb

end Records

/-! ### Laying out makes the parts -/

/-- Building `N'` from `N` makes the parts in the copy `c`, which has the tag. -/
def Makes (c : Option Nat) (tag : Tag) (p : Parts) (N N' : Network) : Prop :=
  ∀ names makers, Records N names makers → Bears names c tag →
    Records N' (names ++ p.names) (makers ++ p.makers c names.length)

section Makes

variable {c : Option Nat} {tag : Tag} {p q : Parts} {N N₁ N₂ : Network}

theorem Makes.refl : Makes c tag .nil N N := fun names makers hN _ => by
  rwa [Parts.names, Parts.makers, List.append_nil, List.append_nil]

theorem Makes.trans (h : Makes c tag p N N₁) (h' : Makes c tag q N₁ N₂) :
    Makes c tag (p ++ q) N N₂ := fun names makers hN hc => by
  have h₂ := h' _ _ (h names makers hN hc) (hc.more p.names)
  rw [List.append_assoc, List.append_assoc, List.length_append] at h₂
  rwa [Parts.names_append, Parts.makers_append]

theorem Makes.link (h : Makes c tag p N N₁) (a b : Nat) : Makes c tag p N (N₁.link a b) :=
  fun names makers hN hc => (h names makers hN hc).same rfl (tags_link N₁ a b)

theorem Makes.connect (h : Makes c tag p N N₁) (a : Nat) (key : Key) (target : String) (b : Nat) :
    Makes c tag p N (N₁.connect a key target b) :=
  fun names makers hN hc => (h names makers hN hc).same rfl (tags_connect N₁ a key target b)

theorem Makes.add (h : Makes c tag p (N.add tag) N₁) : Makes c tag (.node p) N N₁ :=
  fun names makers hN hc => by
    have h₁ := h names _ (hN.add hc) hc
    rwa [List.append_assoc] at h₁

/-- A copy begins with a node of its own, and is the next one that is started. -/
theorem Makes.copy {name : Option String}
    (h : ∀ c, Makes c (N.openGroup name).1 p ((N.openGroup name).2.add (N.openGroup name).1) N₁) :
    Makes c tag (.copy name p .nil) N N₁ := fun names makers hN _ => by
  obtain ⟨hopened, hbears⟩ := hN.openGroup name
  have h₁ := h _ _ _ (hopened.add hbears) hbears
  rw [List.append_assoc, List.append_assoc, List.length_append] at h₁
  rw [Parts.names, Parts.makers, Parts.names, Parts.makers, List.append_nil, List.append_nil]
  exact h₁

/-! ### Drafts -/

theorem makes_advance (c : Option Nat) (tag : Tag) (a : Action) (d : Draft) :
    Makes c tag (.node .nil) d.network (d.advance a tag).network :=
  .add (Makes.refl.connect _ _ _ _)

theorem makes_branch (c : Option Nat) (tag : Tag) (d : Draft) :
    Makes c tag (.node .nil) d.network (d.branch tag).network :=
  .add (Makes.refl.link _ _)

section Passes

variable {pass : Draft → Draft} (hp : ∀ d : Draft, Makes c tag p d.network (pass d).network)
include hp

theorem makes_repeat (k : Nat) (d : Draft) :
    Makes c tag (p.times k) d.network (Nat.repeat pass k d).network := by
  induction k with
  | zero => exact .refl
  | succ k ih => exact ih.trans (hp _)

/-- The copies that are required, and those that may be left out. -/
theorem makes_upTo (exit least most : Nat) (d : Draft) :
    Makes c tag (p.times (max least most)) d.network
      (Nat.repeat (fun d => (pass d).leave exit) (most - least)
        ((Nat.repeat pass least d).leave exit)).network := by
  have hrequired : Makes c tag _ _ ((Nat.repeat pass least d).leave exit).network :=
    (makes_repeat hp least d).link _ _
  have hleave : ∀ d : Draft, Makes c tag p d.network ((pass d).leave exit).network :=
    fun d => (hp d).link _ _
  rw [show max least most = least + (most - least) by omega, Parts.times_add]
  exact hrequired.trans (makes_repeat hleave (most - least) _)

theorem makes_layPasses (exit : Nat) (r : Repetition) (d : Draft) :
    Makes c tag (p.times r.passes) d.network (layPasses exit r pass d) := by
  have hrequired : Makes c tag _ _ ((Nat.repeat pass r.min d).leave exit).network :=
    (makes_repeat hp r.min d).link _ _
  unfold layPasses Repetition.passes
  cases r.max with
  | none => exact ((hrequired.trans (hp _)).link _ _).link _ _
  | some most => exact makes_upTo hp exit r.min most d

end Passes

theorem makes_layAction (c : Option Nat) (entry exit : Nat) (a : Action) (N : Network) :
    Makes c (N.tag exit) (Expression.action a).parts N (layAction entry exit a N) := by
  have hadvance := makes_advance c (N.tag exit) a
  have hrequired := makes_repeat hadvance a.repetition.min ⟨entry, N⟩
  rw [Expression.parts]
  unfold layAction Repetition.nodes
  cases a.repetition.max with
  | none =>
      refine .connect (.link ?_ _ _) _ _ _ _
      dsimp only
      split
      · next hmin =>
          rw [hmin]
          exact makes_branch c (N.tag exit) ⟨entry, N⟩
      · next hmin =>
          rw [show Max.max a.repetition.min 1 = a.repetition.min by omega]
          exact hrequired
  | some most => exact makes_upTo hadvance exit a.repetition.min most ⟨entry, N⟩

/-! ### Expressions -/

theorem tag_of_tags {n : Nat} (h : N.tags[n]? = some tag) : N.tag n = tag := by
  rw [tags_getElem?] at h
  obtain ⟨node, hnode, rfl⟩ := Option.map_eq_some_iff.mp h
  rw [Network.tag, hnode]

theorem tags_added (N : Network) (tag : Tag) : (N.add tag).tags[N.size]? = some tag := by
  rw [tags_getElem?]
  simp [Network.add, size]

mutual

/-- **Laying out an expression makes its parts.** -/
theorem makes_lay (c : Option Nat) : ∀ (e : Expression) {tag : Tag} {entry exit : Nat}
    {N : Network}, N.tags[exit]? = some tag → Makes c tag e.parts N (lay entry exit e N)
  | .action a, tag, entry, exit, N, ht => tag_of_tags ht ▸ makes_layAction c entry exit a N
  | .group name body r, _, entry, exit, N, _ => by
      rw [Expression.parts]
      refine Makes.copy fun c' => ?_
      have hpasses := makes_layPasses (fun d => makes_layBody c' (N.openGroup name).1 body d) exit r
        (Draft.branch (N.openGroup name).1 ⟨entry, (N.openGroup name).2⟩)
      exact (Makes.refl.link entry _).trans hpasses
  | .options alternatives, _, _, _, _, ht => by
      rw [Expression.parts]
      exact makes_layOptions c alternatives ht

theorem makes_layBody (c : Option Nat) (tag : Tag) : ∀ (es : List Expression) (d : Draft),
    Makes c tag (Expression.rowParts es) d.network (layBody tag es d).network
  | [], _ => .refl
  | e :: es, d => by
      rw [Expression.rowParts]
      have hmember : Makes c tag e.parts _ (lay d.node d.network.size e (d.network.add tag)) :=
        makes_lay c e (tags_added d.network tag)
      exact .add (hmember.trans (makes_layBody c tag es ⟨d.network.size, _⟩))

theorem makes_layOptions (c : Option Nat) : ∀ (es : List Expression) {tag : Tag}
    {entry exit : Nat} {N : Network}, N.tags[exit]? = some tag →
      Makes c tag (Expression.choiceParts es) N (layOptions entry exit es N)
  | [], _, _, _, _, _ => .refl
  | e :: es, tag, _, exit, _, ht => by
      rw [Expression.choiceParts]
      exact (makes_lay c e ht).trans
        (makes_layOptions c es ((kept_tag exit tag).lay e ht))

end

end Makes

/-- **An unrolled pattern is a record of its parts.** -/
theorem records_ofExpressions (es : List Expression) :
    Records (ofExpressions es) (Expression.wholeParts es).names
      ((Expression.wholeParts es).makers none 0) := by
  have hempty : Records {} [] [] := ⟨rfl, .nil⟩
  have hends : Records ends [] [none, none] := (hempty.add .start).add .finish
  have hlay : Makes none .finish _ ends (ofExpressions es) :=
    makes_lay none (.group (some Tag.topName) es .once) rfl
  exact hlay _ _ hends .finish

/-! ### Which copy has which number -/

/-- The copy `c` is given the number `k`: it makes nodes, and these are tagged with the number. -/
def Gives (N : Network) (makers : List (Option Nat)) (c k : Nat) : Prop :=
  (∃ n : Nat, makers[n]? = some (some c)) ∧
    ∀ n : Nat, makers[n]? = some (some c) → N.tag n = .numbered k

namespace Records

variable {N : Network} {names : List (Option String)} {makers : List (Option Nat)}

theorem length_makers (h : Records N names makers) : makers.length = N.size := by
  rw [h.tags.length_eq, Network.tags, List.length_map, Array.length_toList, size]

theorem bears (h : Records N names makers) {n : Nat} {c : Option Nat} (hc : makers[n]? = some c) :
    Bears names c (N.tag n) := by
  obtain ⟨hlt, rfl⟩ := List.getElem?_eq_some_iff.mp hc
  have hlt' : n < N.tags.length := h.tags.length_eq ▸ hlt
  rw [tag_of_tags (List.getElem?_eq_getElem hlt')]
  exact h.tags.get hlt hlt'

/-- **The nodes with a number are those made by the unnamed copy that comes in this place.** -/
theorem numbered_iff (h : Records N names makers) {n k : Nat} :
    N.tag n = .numbered k ↔
      k < N.groups ∧ makers[n]? = some (some (names.idxOfNth none k)) := by
  rw [h.groups]
  constructor
  · intro hn
    have hlt : n < N.size := by
      by_contra hsize
      rw [tag_eq, node_of_size_le (Nat.le_of_not_lt hsize)] at hn
      cases hn
    obtain ⟨c, hc⟩ : ∃ c, makers[n]? = some c :=
      ⟨_, List.getElem?_eq_getElem (h.length_makers.symm ▸ hlt)⟩
    have hb := h.bears hc
    rw [hn] at hb
    cases hb with
    | @numbered c hname =>
        obtain ⟨hlt, hname⟩ := List.getElem?_eq_some_iff.mp hname
        refine ⟨List.countBefore_lt_count_of_lt_length_of_beq (h := hlt) (by simp [hname]), ?_⟩
        rw [List.idxOfNth_countBefore_of_lt_length_of_beq (h := hlt) (by simp [hname])]
        exact hc
  · rintro ⟨hk, hc⟩
    have hlt := List.idxOfNth_lt_length_of_lt_count hk
    have hname : names[names.idxOfNth none k]? = some none := by
      rw [List.getElem?_eq_getElem hlt, List.getElem_idxOfNth_eq]
    have hb := h.bears hc
    generalize htag : N.tag n = tag at hb
    cases hb with
    | named hname' => cases hname.symm.trans hname'
    | numbered _ => rw [List.countBefore_idxOfNth_of_lt_count hk]

theorem gives_iff (h : Records N names makers)
    (hmade : ∀ c < names.length, ∃ n : Nat, makers[n]? = some (some c)) {c k : Nat} :
    N.Gives makers c k ↔ k < N.groups ∧ c = names.idxOfNth none k := by
  constructor
  · rintro ⟨⟨n, hn⟩, hall⟩
    obtain ⟨hk, hn'⟩ := h.numbered_iff.mp (hall n hn)
    exact ⟨hk, Option.some.inj (Option.some.inj (hn.symm.trans hn'))⟩
  · rintro ⟨hk, rfl⟩
    have hlt := List.idxOfNth_lt_length_of_lt_count (h.groups ▸ hk)
    exact ⟨hmade _ hlt, fun n hn => h.numbered_iff.mpr ⟨hk, hn⟩⟩

theorem unnamed_iff (h : Records N names makers) {c : Nat} :
    names[c]? = some none ↔ ∃ k < N.groups, c = names.idxOfNth none k := by
  rw [h.groups]
  constructor
  · intro hname
    obtain ⟨hlt, hname⟩ := List.getElem?_eq_some_iff.mp hname
    have hbeq : (names[c] == none) = true := beq_iff_eq.mpr hname
    exact ⟨_, List.countBefore_lt_count_of_lt_length_of_beq hbeq,
      (List.idxOfNth_countBefore_of_lt_length_of_beq hbeq).symm⟩
  · rintro ⟨k, hk, rfl⟩
    rw [List.getElem?_eq_getElem (List.idxOfNth_lt_length_of_lt_count hk),
      List.getElem_idxOfNth_eq]

end Records

/-- **Numbers are given to the unnamed copies of groups.**  As many are handed out as the
expressions take, where a repeated group takes those of its body for every pass.  Each number goes
to just one copy, every unnamed copy gets one, and they are given in the order in which the copies
are started, that is, in which they make their first nodes.  So nodes have the same number just if
the same unnamed copy has made them directly.  A number that is a tag in the network or in the
automaton has been handed out. -/
theorem groups_numbered (L : Dialect) (es : List Expression) :
    let N := ofExpressions es
    let A := Automaton.ofExpressions L es
    let copies := (Expression.wholeParts es).names
    let makers := (Expression.wholeParts es).makers none 0
    N.groups = Expression.sumNumbers es ∧ A.groups = Expression.sumNumbers es ∧
    makers.length = N.size ∧
    (∀ k < N.groups, ∃! c, N.Gives makers c k) ∧
    (∀ c : Nat, copies[c]? = some none ↔ ∃ k < N.groups, N.Gives makers c k) ∧
    (∀ c d j k, N.Gives makers c j → N.Gives makers d k → (j < k ↔ c < d)) ∧
    (∀ c d n : Nat, c < d → makers[n]? = some (some d) →
      ∃ m < n, makers[m]? = some (some c)) ∧
    (∀ m n : Nat, (∃ k, N.tag m = .numbered k ∧ N.tag n = .numbered k) ↔
      ∃ c : Nat, copies[c]? = some none ∧ makers[m]? = some (some c) ∧ makers[n]? = some (some c)) ∧
    (∀ n k, N.tag n = .numbered k → k < N.groups) ∧
    ∀ s ∈ A.states, ∀ k, s.tag = .numbered k → k < A.groups := by
  intro N A copies makers
  have h : Records N copies makers := records_ofExpressions es
  have hgroups : N.groups = Expression.sumNumbers es :=
    h.groups.trans (Expression.count_wholeParts es)
  have hmade : ∀ c < copies.length, ∃ n : Nat, makers[n]? = some (some c) := fun c hc =>
    List.mem_iff_getElem?.mp (Parts.mem_makers (Nat.zero_le c) (by simpa using hc))
  have hgives := fun {c k} => h.gives_iff hmade (c := c) (k := k)
  have hbelow : ∀ n k, N.tag n = .numbered k → k < N.groups := fun n k hn =>
    (h.numbered_iff.mp hn).1
  refine ⟨hgroups, hgroups, h.length_makers, fun k hk => ?_, fun c => ?_, ?_, ?_, fun m n => ?_,
    hbelow, ?_⟩
  · exact ⟨_, hgives.mpr ⟨hk, rfl⟩, fun c hc => (hgives.mp hc).2⟩
  · rw [h.unnamed_iff]
    exact exists_congr fun k => and_congr_right fun hk =>
      ⟨fun hc => hgives.mpr ⟨hk, hc⟩, fun hc => (hgives.mp hc).2⟩
  · intro c d j k hc hd
    obtain ⟨hj, rfl⟩ := hgives.mp hc
    obtain ⟨-, rfl⟩ := hgives.mp hd
    exact (List.idxOfNth_lt_idxOfNth_iff_of_lt_count (h.groups ▸ hj)).symm
  · intro c d n hcd hn
    exact Parts.exists_maker_before (fun x hx => nomatch hx) hn (Nat.zero_le c) hcd
  · constructor
    · rintro ⟨k, hm, hn⟩
      obtain ⟨hk, hm⟩ := h.numbered_iff.mp hm
      exact ⟨_, h.unnamed_iff.mpr ⟨k, hk, rfl⟩, hm, (h.numbered_iff.mp hn).2⟩
    · rintro ⟨c, hc, hm, hn⟩
      obtain ⟨k, hk, rfl⟩ := h.unnamed_iff.mp hc
      exact ⟨k, h.numbered_iff.mpr ⟨hk, hm⟩, h.numbered_iff.mpr ⟨hk, hn⟩⟩
  · intro s hs k hk
    obtain ⟨i, hi⟩ := Array.mem_iff_getElem?.mp hs
    obtain ⟨n, -, htag⟩ := Automaton.exists_node hi
    exact hbelow n k (htag.symm.trans hk)

/-- Of three passes over a group that contains another, each contains a copy of it. -/
example :
    let inner : Expression := .group none [.action ⟨⟨.move, 1⟩, ".*", .once⟩] .once
    (ofExpressions [.group none [inner] (.exactly 3)]).groups = 4 := by
  decide +kernel

end Network

end Multitouch
