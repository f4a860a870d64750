import Multitouch.Proofs.Grammar.Printed
import Multitouch.Proofs.Networks
import Multitouch.Proofs.Unrolled

/-!
# Every node is on a way to the exit

Laying something out between `a` and `b` leads from `a` to `b`, and every node that is added in
between is led to from `a` and leads to `b` (`Flows`).  Parts laid out one after the other keep
this (`Flows.trans`), and so do parts that are laid out beside each other, as alternatives or as
copies which may be left out (`Flows.beside`).

The one thing that leads nowhere is a choice without alternatives.  Where there is none in a
pattern, which is then *passable*, every node of its network is reached from the initial one
(`initial_comes`), and the final node is reached from it (`comes_final`).  What is read from a text
is passable (`Expression.passable_of_read`).
-/

namespace Multitouch

namespace Expression

mutual

/-- Every choice in the expression has an alternative. -/
def Passable : Expression → Prop
  | action _ => True
  | group _ body _ => AllPassable body
  | options alternatives => alternatives ≠ [] ∧ AllPassable alternatives

/-- Every choice in the expressions has an alternative. -/
def AllPassable : List Expression → Prop
  | [] => True
  | e :: es => e.Passable ∧ AllPassable es

end

mutual

theorem Writable.passable : ∀ {e : Expression}, e.Writable → e.Passable
  | .action _, _ => by
      rw [Passable]
      trivial
  | .group _ _ _, h => by
      rw [Writable] at h
      rw [Passable]
      exact h.2.1.passable
  | .options alternatives, h => by
      rw [Writable] at h
      rw [Passable]
      exact ⟨List.ne_nil_of_length_pos (Nat.lt_of_succ_lt h.1), h.2.2.passable⟩

theorem AllWritable.passable : ∀ {es : List Expression}, AllWritable es → AllPassable es
  | [], _ => by
      rw [AllPassable]
      trivial
  | _ :: _, h => by
      rw [AllWritable] at h
      rw [AllPassable]
      exact ⟨h.1.passable, AllWritable.passable h.2⟩

end

theorem passable_of_read {pattern : String} {es : List Expression}
    (h : read pattern = .ok es) : AllPassable es :=
  (derives_of_read h).expressible.writable.passable

end Expression

namespace Network

/-! ### Going on to the exit -/

/-- `b` is entered from `a` by arcs, whatever they read. -/
def Comes (N : Network) : Nat → Nat → Prop :=
  Relation.ReflTransGen fun a b => ∃ l, N.Arc a l b

/-- In the network that `N` has grown to, `a` leads to `b`, and so it does by way of every node
that has been added. -/
structure Flows (a b : Nat) (N N' : Network) : Prop where
  grows : Grows N N'
  inside : b < N'.size
  through : N'.Comes a b
  added : ∀ n, N.size ≤ n → n < N'.size → N'.Comes a n ∧ N'.Comes n b

variable {N N₁ N₂ : Network} {a b c : Nat}

theorem Grows.comes (h : Grows N N₁) (hab : N.Comes a b) : N₁.Comes a b :=
  hab.lift id fun _ _ ⟨l, hl⟩ => ⟨l, h.arc hl⟩

theorem Flows.refl (ha : a < N.size) : Flows a a N N :=
  ⟨.refl N, ha, .refl, fun _ hle hlt => absurd hlt (Nat.not_lt.mpr hle)⟩

theorem Flows.trans (h : Flows a b N N₁) (h' : Flows b c N₁ N₂) : Flows a c N N₂ where
  grows := h.grows.trans h'.grows
  inside := h'.inside
  through := (h'.grows.comes h.through).trans h'.through
  added n hle hlt := by
    rcases Nat.lt_or_ge n N₁.size with hold | hnew
    · obtain ⟨hto, hfrom⟩ := h.added n hle hold
      exact ⟨h'.grows.comes hto, (h'.grows.comes hfrom).trans h'.through⟩
    · obtain ⟨hto, hfrom⟩ := h'.added n hnew hlt
      exact ⟨(h'.grows.comes h.through).trans hto, hfrom⟩

/-- What is laid out later may start and end in the same nodes. -/
theorem Flows.beside (h : Flows a b N N₁) (h' : Flows a b N₁ N₂) : Flows a b N N₂ where
  grows := h.grows.trans h'.grows
  inside := h'.inside
  through := h'.through
  added n hle hlt := by
    rcases Nat.lt_or_ge n N₁.size with hold | hnew
    · exact (h.added n hle hold).imp h'.grows.comes h'.grows.comes
    · exact h'.added n hnew hlt

/-- More arcs do no harm. -/
theorem Flows.more (h : Flows a b N N₁) (hg : Grows N₁ N₂) (hs : N₂.size = N₁.size) :
    Flows a b N N₂ where
  grows := h.grows.trans hg
  inside := hs.symm ▸ h.inside
  through := hg.comes h.through
  added n hle hlt := (h.added n hle (hs ▸ hlt)).imp hg.comes hg.comes

theorem Flows.of_openGroup {name : Option String} (h : Flows a b (N.openGroup name).2 N₁) :
    Flows a b N N₁ where
  grows := (grows_openGroup N name).trans h.grows
  inside := h.inside
  through := h.through
  added n hle := h.added n ((size_openGroup N name).symm ▸ hle)

/-- A node that has just been added may be led to. -/
theorem Flows.of_add {tag : Tag} (h : Flows a N.size (N.add tag) N₁) : Flows a N.size N N₁ where
  grows := (grows_add N tag).trans h.grows
  inside := h.inside
  through := h.through
  added n hle hlt := by
    rcases Nat.eq_or_lt_of_le hle with rfl | hnew
    · exact ⟨h.through, .refl⟩
    · exact h.added n (size_add N tag ▸ hnew) hlt

theorem flows_link (ha : a < N.size) (hb : b < N.size) : Flows a b N (N.link a b) where
  grows := grows_link ha b
  inside := (size_link N a b).symm ▸ hb
  through := .single ⟨none, (arc_link ha).mpr (.inr ⟨rfl, rfl, rfl⟩)⟩
  added _ hle hlt := absurd ((size_link N a b) ▸ hlt) (Nat.not_lt.mpr hle)

theorem flows_connect (ha : a < N.size) (hb : b < N.size) (key : Key) (target : String) :
    Flows a b N (N.connect a key target b) where
  grows := grows_connect ha key target b
  inside := (size_connect N a key target b).symm ▸ hb
  through := .single ⟨some (key, target), (arc_connect ha).mpr (.inr ⟨rfl, rfl, rfl⟩)⟩
  added _ hle hlt := absurd ((size_connect N a key target b) ▸ hlt) (Nat.not_lt.mpr hle)

/-! ### Copies -/

variable {d : Draft} {exit : Nat}

theorem flows_advance (x : Action) (tag : Tag) (hd : d.node < d.network.size) :
    Flows d.node (d.advance x tag).node d.network (d.advance x tag).network :=
  .of_add (flows_connect (hd.trans (size_lt_add _ tag)) (size_lt_add _ tag) x.key x.target)

theorem flows_branch (tag : Tag) (hd : d.node < d.network.size) :
    Flows d.node (d.branch tag).node d.network (d.branch tag).network :=
  .of_add (flows_link (hd.trans (size_lt_add _ tag)) (size_lt_add _ tag))

theorem flows_leave (hd : d.node < d.network.size) (ho : exit < d.network.size) :
    Flows d.node exit d.network (d.leave exit).network :=
  flows_link hd ho

section Copies

variable {pass : Draft → Draft}
  (hp : ∀ d : Draft, d.node < d.network.size →
    Flows d.node (pass d).node d.network (pass d).network)
include hp

theorem flows_repeat (hd : d.node < d.network.size) (n : Nat) :
    Flows d.node (Nat.repeat pass n d).node d.network (Nat.repeat pass n d).network := by
  induction n with
  | zero => exact .refl hd
  | succ n ih => exact ih.trans (hp _ ih.inside)

/-- One more pass, from a place that has been left already. -/
theorem flows_pass (hd : d.node < d.network.size) (ho : exit < d.network.size) :
    Flows d.node (pass (d.leave exit)).node (d.leave exit).network
      (pass (d.leave exit)).network ∧ exit < (pass (d.leave exit)).network.size := by
  have hpass := hp (d.leave exit) ((size_link ..).symm ▸ hd)
  exact ⟨hpass, (flows_leave hd ho).inside.trans_le hpass.grows.size_le⟩

/-- Copies that may each be left for the exit. -/
theorem flows_upTo (k : Nat) : ∀ {d : Draft}, d.node < d.network.size → exit < d.network.size →
    Flows d.node exit d.network
      (Nat.repeat (fun d => (pass d).leave exit) k (d.leave exit)).network := by
  induction k with
  | zero => exact fun hd ho => flows_leave hd ho
  | succ k ih =>
      intro d hd ho
      rw [repeat_succ]
      obtain ⟨hpass, ho'⟩ := flows_pass hp hd ho
      exact (flows_leave hd ho).beside (hpass.trans (ih hpass.inside ho'))

theorem flows_layPasses (hd : d.node < d.network.size) (ho : exit < d.network.size)
    (r : Repetition) : Flows d.node exit d.network (layPasses exit r pass d) := by
  have hrequired := flows_repeat hp hd r.min
  have ho' := ho.trans_le hrequired.grows.size_le
  unfold layPasses
  split
  · obtain ⟨hpass, ho''⟩ := flows_pass hp hrequired.inside ho'
    have hleave := flows_leave hpass.inside ho''
    have hloop := hrequired.trans ((flows_leave hrequired.inside ho').beside (hpass.trans hleave))
    -- the loop is left before and after its pass, and the link back only adds to that
    exact hloop.more (grows_link ((size_link ..).symm ▸ hpass.inside) _) (size_link ..)
  · exact hrequired.trans (flows_upTo hp _ hrequired.inside ho')

end Copies

theorem flows_layAction (x : Action) {entry : Nat} (hi : entry < N.size) (ho : exit < N.size) :
    Flows entry exit N (layAction entry exit x N) := by
  have hadvance := fun (d : Draft) => flows_advance (d := d) x (N.tag exit)
  have hrequired := flows_repeat hadvance (d := ⟨entry, N⟩) hi x.repetition.min
  unfold layAction
  split
  · let required := Nat.repeat (Draft.advance x (N.tag exit)) x.repetition.min ⟨entry, N⟩
    let turning := if x.repetition.min = 0 then required.branch (N.tag exit) else required
    have hturning : Flows entry turning.node N turning.network := by
      unfold turning
      split
      · exact hrequired.trans (flows_branch (N.tag exit) hrequired.inside)
      · exact hrequired
    have hleave := flows_leave hturning.inside (ho.trans_le hturning.grows.size_le)
    have hinside : turning.node < (turning.leave exit).network.size :=
      (size_link ..).symm ▸ hturning.inside
    exact (hturning.trans hleave).more (grows_connect hinside ..) (size_connect ..)
  · exact hrequired.trans
      (flows_upTo hadvance _ hrequired.inside (ho.trans_le hrequired.grows.size_le))

/-! ### Expressions -/

mutual

/-- **What is laid out leads to the exit**, where every choice has an alternative. -/
theorem flows_lay : ∀ (e : Expression), e.Passable → ∀ {entry exit : Nat} {N : Network},
    entry < N.size → exit < N.size → Flows entry exit N (lay entry exit e N)
  | .action x, _, _, _, _, hi, ho => flows_layAction x hi ho
  | .group name body r, h, entry, exit, N, hi, ho => by
      rw [Expression.Passable] at h
      have hs := size_openGroup N name
      have hbranch := flows_branch (d := ⟨entry, (N.openGroup name).2⟩) (N.openGroup name).1
        (hs.symm ▸ hi)
      have ho' := (hs.symm ▸ ho : exit < (N.openGroup name).2.size)
      exact .of_openGroup (hbranch.trans (flows_layPasses
        (fun _ hd => flows_layBody (N.openGroup name).1 body h hd) hbranch.inside
        (ho'.trans_le hbranch.grows.size_le) r))
  | .options alternatives, h, _, _, _, hi, ho => by
      rw [Expression.Passable] at h
      exact flows_layOptions alternatives h.1 h.2 hi ho

theorem flows_layBody (tag : Tag) : ∀ (es : List Expression), Expression.AllPassable es →
    ∀ {d : Draft}, d.node < d.network.size →
      Flows d.node (layBody tag es d).node d.network (layBody tag es d).network
  | [], _, _, hd => .refl hd
  | e :: es, h, d, hd => by
      rw [Expression.AllPassable] at h
      have hs := size_lt_add d.network tag
      have hmember := (flows_lay e h.1 (hd.trans hs) hs).of_add
      exact hmember.trans (flows_layBody tag es h.2 (d := ⟨d.network.size, _⟩) hmember.inside)

theorem flows_layOptions : ∀ (es : List Expression), es ≠ [] → Expression.AllPassable es →
    ∀ {entry exit : Nat} {N : Network}, entry < N.size → exit < N.size →
      Flows entry exit N (layOptions entry exit es N)
  | [], hne, _, _, _, _, _, _ => absurd rfl hne
  | [e], _, h, _, _, _, hi, ho => by
      rw [Expression.AllPassable] at h
      exact flows_lay e h.1 hi ho
  | e :: e' :: es, _, h, _, _, _, hi, ho => by
      rw [Expression.AllPassable] at h
      have hfirst := flows_lay e h.1 hi ho
      exact hfirst.beside (flows_layOptions (e' :: es) (List.cons_ne_nil e' es) h.2
        (hi.trans_le hfirst.grows.size_le) hfirst.inside)

end

/-- Every node of a passable pattern is on a way from the initial node to the final one. -/
theorem initial_comes_final {es : List Expression} (h : Expression.AllPassable es) {n : Nat}
    (hn : n < (ofExpressions es).size) :
    (ofExpressions es).Comes initial n ∧ (ofExpressions es).Comes n final := by
  have hflows : Flows initial final ends (ofExpressions es) :=
    flows_lay (.group (some Tag.topName) es .once) (by rwa [Expression.Passable]) (by decide)
      (by decide)
  match n with
  | 0 => exact ⟨.refl, hflows.through⟩
  | 1 => exact ⟨hflows.through, .refl⟩
  | n + 2 => exact hflows.added (n + 2) (Nat.le_add_left 2 n) hn

/-- **Every node of a passable pattern is reached.** -/
theorem initial_comes {es : List Expression} (h : Expression.AllPassable es) {n : Nat}
    (hn : n < (ofExpressions es).size) : (ofExpressions es).Comes initial n :=
  (initial_comes_final h hn).1

/-- **The final node is reached from every node of a passable pattern.** -/
theorem comes_final {es : List Expression} (h : Expression.AllPassable es) {n : Nat}
    (hn : n < (ofExpressions es).size) : (ofExpressions es).Comes n final :=
  (initial_comes_final h hn).2

end Network

end Multitouch
