import Multitouch.Network.Unroll
import Multitouch.Proofs.Grammar.Printed
import Multitouch.Proofs.Networks

/-!
# The size of an unrolled pattern

What the reader counts before anything is unrolled, `Expression.bound`, is no less than the number
of nodes that unrolling adds (`spends_lay`), if no repetition requires more copies than it allows:
then the required and the other copies are no more than `Repetition.copies`.  A group gets its
number only together with its first node, so no more numbers are handed out than nodes are added.

A pattern that is read is within the limit of the reader, and so is its network
(`size_within_budget`).
-/

namespace Multitouch

/-! ### Repetitions that can be met -/

/-- The repetition does not require more than it allows. -/
def Repetition.Ordered (r : Repetition) : Prop :=
  ∀ most, r.max = some most → r.min ≤ most

theorem Repetition.Writable.ordered : ∀ {r : Repetition}, r.Writable → r.Ordered
  | ⟨_, some _⟩, h => fun _ hm => Option.some.inj hm ▸ h
  | ⟨_, none⟩, _ => nofun

namespace Expression

mutual

/-- No repetition in the expression requires more than it allows. -/
def Ordered : Expression → Prop
  | action a => a.repetition.Ordered
  | group _ body r => r.Ordered ∧ AllOrdered body
  | options alternatives => AllOrdered alternatives

/-- No repetition in the expressions requires more than it allows. -/
def AllOrdered : List Expression → Prop
  | [] => True
  | e :: es => e.Ordered ∧ AllOrdered es

end

mutual

theorem Writable.ordered : ∀ {e : Expression}, e.Writable → e.Ordered
  | .action a, h => by
      rw [Writable] at h
      rw [Ordered]
      exact h.repetition.ordered
  | .group _ _ _, h => by
      rw [Writable] at h
      rw [Ordered]
      exact ⟨h.2.2.ordered, AllWritable.ordered h.2.1⟩
  | .options _, h => by
      rw [Writable] at h
      rw [Ordered]
      exact AllWritable.ordered h.2.2

theorem AllWritable.ordered : ∀ {es : List Expression}, AllWritable es → AllOrdered es
  | [], _ => by
      rw [AllOrdered]
      trivial
  | _ :: _, h => by
      rw [AllWritable] at h
      rw [AllOrdered]
      exact ⟨h.1.ordered, AllWritable.ordered h.2⟩

end

end Expression

namespace Network

/-! ### What is added -/

/-- The second network has at most `n` nodes more than the first, and at least one more for each
group number that was handed out in between. -/
structure Spends (n : Nat) (N N' : Network) : Prop where
  size_le : N'.size ≤ N.size + n
  groups_le : N.groups ≤ N'.groups
  numbered_le : N'.groups + N.size ≤ N.groups + N'.size

variable {m n k : Nat} {N N₁ N₂ : Network} {d d₁ : Draft}

theorem Spends.refl (N : Network) : Spends 0 N N :=
  ⟨Nat.le_refl _, Nat.le_refl _, Nat.le_refl _⟩

theorem Spends.trans (h : Spends m N N₁) (h' : Spends n N₁ N₂) : Spends (m + n) N N₂ := by
  obtain ⟨h₁, h₂, h₃⟩ := h
  obtain ⟨h₁', h₂', h₃'⟩ := h'
  exact ⟨by omega, by omega, by omega⟩

theorem Spends.mono (h : Spends m N N₁) (hmn : m ≤ n) : Spends n N N₁ :=
  ⟨h.size_le.trans (Nat.add_le_add_left hmn _), h.groups_le, h.numbered_le⟩

theorem spends_add (N : Network) (tag : Tag) : Spends 1 N (N.add tag) := by
  have hsize := size_add N tag
  exact ⟨hsize.le, Nat.le_refl _, Nat.add_le_add_left (Nat.le.intro hsize.symm) _⟩

theorem spends_link (N : Network) (a b : Nat) : Spends 0 N (N.link a b) :=
  ⟨(size_link N a b).le, Nat.le_refl _, Nat.add_le_add_left (size_link N a b).ge _⟩

theorem spends_connect (N : Network) (a : Nat) (key : Key) (target : String) (b : Nat) :
    Spends 0 N (N.connect a key target b) :=
  ⟨(size_connect N a key target b).le, Nat.le_refl _,
    Nat.add_le_add_left (size_connect N a key target b).ge _⟩

theorem spends_advance (a : Action) (tag : Tag) (d : Draft) :
    Spends 1 d.network (d.advance a tag).network :=
  (spends_add _ _).trans (spends_connect _ _ _ _ _)

theorem spends_branch (tag : Tag) (d : Draft) : Spends 1 d.network (d.branch tag).network :=
  (spends_add _ _).trans (spends_link _ _ _)

theorem spends_leave (exit : Nat) (d : Draft) : Spends 0 d.network (d.leave exit).network :=
  spends_link _ _ _

/-- The number of a group is paid for by the node that is added with it. -/
theorem spends_openGroup (name : Option String) (entry : Nat) (N : Network) :
    let opened := N.openGroup name
    Spends 1 N (Draft.branch opened.1 ⟨entry, opened.2⟩).network := by
  intro opened
  obtain ⟨h₁, h₂, h₃⟩ := spends_branch opened.1 ⟨entry, opened.2⟩
  have hsize : opened.2.size = N.size := size_openGroup N name
  have hgroups : N.groups ≤ opened.2.groups ∧ opened.2.groups ≤ N.groups + 1 := by
    cases name with
    | none => exact ⟨Nat.le_succ _, Nat.le_refl _⟩
    | some _ => exact ⟨Nat.le_refl _, Nat.le_succ _⟩
  have hgrown : (Draft.branch opened.1 ⟨entry, opened.2⟩).network.size = N.size + 1 := by
    rw [Draft.branch, size_link, size_add, hsize]
  have hsame : (Draft.branch opened.1 ⟨entry, opened.2⟩).network.groups = opened.2.groups := rfl
  exact ⟨hgrown.le, hgroups.1, by omega⟩

/-! ### Copies -/

section Copies

variable {pass : Draft → Draft} {r : Repetition}

theorem spends_repeat (hp : ∀ d : Draft, Spends k d.network (pass d).network) (n : Nat)
    (d : Draft) : Spends (n * k) d.network (Nat.repeat pass n d).network := by
  induction n with
  | zero =>
      rw [Nat.zero_mul]
      exact .refl _
  | succ n ih =>
      rw [Nat.succ_mul]
      exact ih.trans (hp _)

/-- Copies that may each be left. -/
theorem spends_upTo (hp : ∀ d : Draft, Spends k d.network (pass d).network) (exit n : Nat)
    (d : Draft) :
    Spends (n * k) d.network (Nat.repeat (fun d => (pass d).leave exit) n d).network :=
  spends_repeat (fun d => (hp d).trans (spends_leave exit _)) n d

/-- The required copies and one to loop in, or all that are allowed, are as many as are counted. -/
theorem spends_layPasses (hr : r.Ordered)
    (hp : ∀ d : Draft, Spends k d.network (pass d).network) (exit : Nat) (d : Draft) :
    Spends (r.copies * k) d.network (layPasses exit r pass d) := by
  have hrequired := (spends_repeat hp r.min d).trans (spends_leave exit _)
  unfold layPasses
  split
  · next hm =>
      have hcopies : r.copies * k = r.min * k + k := by
        rw [Repetition.copies, hm, Nat.succ_mul]
      rw [hcopies]
      exact ((hrequired.trans (hp _)).trans (spends_leave exit _)).trans (spends_leave _ _)
  · next most hm =>
      have hcopies : r.min * k + (most - r.min) * k ≤ r.copies * k := by
        rw [← Nat.add_mul, Nat.add_sub_cancel' (hr most hm), Repetition.copies, hm]
        exact Nat.mul_le_mul_right k (Nat.le_max_left most 1)
      exact (hrequired.trans (spends_upTo hp exit _ _)).mono hcopies

theorem spends_layAction (entry exit : Nat) (a : Action) (ha : a.repetition.Ordered)
    (N : Network) : Spends a.repetition.copies N (layAction entry exit a N) := by
  have hp : ∀ d : Draft, Spends 1 d.network (d.advance a (N.tag exit)).network :=
    spends_advance a _
  have hrequired := spends_repeat hp a.repetition.min ⟨entry, N⟩
  rw [Nat.mul_one] at hrequired
  unfold layAction
  split
  · next hm =>
      rw [Repetition.copies, hm]
      refine Spends.trans (m := a.repetition.min + 1) ?_ (spends_connect _ _ _ _ _)
      refine Spends.trans (m := a.repetition.min + 1) ?_ (spends_leave exit _)
      -- the loop has a node of its own only if there is no required copy that it could turn in
      split
      · exact hrequired.trans (spends_branch _ _)
      · exact hrequired.mono (Nat.le_succ _)
  · next most hm =>
      have hcopies : a.repetition.min + (most - a.repetition.min) * 1 ≤ a.repetition.copies := by
        rw [Nat.mul_one, Nat.add_sub_cancel' (ha most hm), Repetition.copies, hm]
        exact Nat.le_max_left most 1
      exact ((hrequired.trans (spends_leave exit _)).trans (spends_upTo hp exit _ _)).mono hcopies

end Copies

/-! ### Expressions -/

/-- A group has a node of its own and those of the copies of its body. -/
theorem spends_layGroup (name : Option String) {body : List Expression} {r : Repetition}
    (hr : r.Ordered)
    (hbody : ∀ (tag : Tag) (d : Draft),
      Spends (Expression.bodyBound body) d.network (layBody tag body d).network)
    (entry exit : Nat) (N : Network) :
    Spends (1 + r.copies * Expression.bodyBound body) N (lay entry exit (.group name body r) N) :=
  (spends_openGroup name entry N).trans (spends_layPasses hr (hbody (N.openGroup name).1) exit _)

mutual

/-- **Unrolling adds no more nodes than were counted.** -/
theorem spends_lay : ∀ (e : Expression), e.Ordered → ∀ (entry exit : Nat) (N : Network),
    Spends e.bound N (lay entry exit e N)
  | .action a, h, entry, exit, N => by
      rw [Expression.Ordered] at h
      rw [Expression.bound]
      exact spends_layAction entry exit a h N
  | .group name body r, h, entry, exit, N => by
      rw [Expression.Ordered] at h
      have hbody := fun tag => spends_layBody tag body h.2
      refine (spends_layGroup name h.1 hbody entry exit N).mono ?_
      rw [Expression.bound, Nat.add_comm, Nat.mul_comm]
      exact Nat.succ_le_succ (Nat.mul_le_mul_right _ (Nat.le_succ _))
  | .options alternatives, h, entry, exit, N => by
      rw [Expression.Ordered] at h
      rw [Expression.bound]
      exact spends_layOptions alternatives h entry exit N

theorem spends_layBody (tag : Tag) : ∀ (es : List Expression), Expression.AllOrdered es →
    ∀ d : Draft, Spends (Expression.bodyBound es) d.network (layBody tag es d).network
  | [], _, d => .refl _
  | e :: es, h, d => by
      rw [Expression.AllOrdered] at h
      rw [Expression.bodyBound, Nat.add_comm e.bound 1]
      have hmember := (spends_add d.network tag).trans
        (spends_lay e h.1 d.node d.network.size (d.network.add tag))
      exact hmember.trans (spends_layBody tag es h.2 ⟨d.network.size, _⟩)

theorem spends_layOptions : ∀ (es : List Expression), Expression.AllOrdered es →
    ∀ (entry exit : Nat) (N : Network),
      Spends (Expression.optionsBound es) N (layOptions entry exit es N)
  | [], _, _, _, N => .refl N
  | e :: es, h, entry, exit, N => by
      rw [Expression.AllOrdered] at h
      rw [Expression.optionsBound]
      exact (spends_lay e h.1 entry exit N).trans (spends_layOptions es h.2 entry exit _)

end

/-! ### Patterns -/

theorem spends_ofExpressions {es : List Expression} (h : Expression.AllOrdered es) :
    Spends (1 + Expression.bodyBound es) ends (.ofExpressions es) := by
  have honce : Repetition.once.Ordered := fun _ hm => Option.some.inj hm ▸ Nat.le_refl 1
  have hbody := fun tag => spends_layBody tag es h
  have hspends := spends_layGroup (some Tag.topName) honce hbody initial final ends
  rwa [show Repetition.once.copies = 1 from rfl, Nat.one_mul] at hspends

theorem statesBound_eq (es : List Expression) :
    Grammar.statesBound es = 3 + Expression.bodyBound es := by
  unfold Grammar.statesBound
  induction es with
  | nil => rfl
  | cons e es ih =>
      rw [Expression.bodyBound, List.map_cons, List.sum_cons]
      omega

/-- **What is read is small enough to be unrolled.**  The network of a pattern that is read has no
more nodes than the limit, and the groups in it are fewer, so that 32 bits are enough to number
them.  More generally, an expression whose repetitions can be met adds at most as many nodes as
were counted, whatever it is laid out between, and numbers are only ever handed out. -/
theorem size_within_budget :
    (∀ pattern es, Expression.read pattern = .ok es →
      (ofExpressions es).size ≤ maxStates ∧ (ofExpressions es).groups < maxStates ∧
        maxStates < numberLimit) ∧
    ∀ e : Expression, e.Ordered → ∀ (entry exit : Nat) (N : Network),
      (lay entry exit e N).size ≤ N.size + e.bound ∧ N.groups ≤ (lay entry exit e N).groups := by
  refine ⟨fun pattern es h => ?_, fun e he entry exit N => ?_⟩
  · have hderives := Expression.derives_of_read h
    have hstates := hderives.states_le
    have hspends := spends_ofExpressions hderives.expressible.writable.ordered
    have hsize := hspends.size_le
    have hnumbered := hspends.numbered_le
    rw [statesBound_eq] at hstates
    rw [show ends.size = 2 from rfl] at hsize hnumbered
    rw [show ends.groups = 0 from rfl] at hnumbered
    exact ⟨by omega, by omega, by decide⟩
  · have hspends := spends_lay e he entry exit N
    exact ⟨hspends.size_le, hspends.groups_le⟩

/-- A contact that is pressed as often as the limit allows. -/
def presses : Expression :=
  .action ⟨⟨.press, 1⟩, Grammar.anyTarget, .exactly 99996⟩

theorem size_within_budget_presses :
    Expression.read "d1\x7b99996\x7d" = .ok [presses] ∧
      (ofExpressions [presses]).size ≤ maxStates ∧ presses.Ordered ∧
        (lay initial final presses ends).size ≤ ends.size + 99996 := by
  have hread : Expression.read "d1\x7b99996\x7d" = .ok [presses] := by decide +kernel
  have hordered : presses.Ordered := by
    rw [presses, Expression.Ordered]
    exact fun _ hm => (Option.some.inj hm).le
  exact ⟨hread, (size_within_budget.1 _ _ hread).1, hordered,
    (size_within_budget.2 presses hordered initial final ends).1⟩

end Network

end Multitouch
