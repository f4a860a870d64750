import Multitouch.Proofs.Language.Tagged
import Multitouch.Proofs.Unrolled

/-!
# What laying out leaves alone

Laying something out between an entry and an exit is done by operations of a few kinds (`Built`).
Nodes are added.  Arcs are put in that leave from the entry or from nodes that have been added, and
they lead to nodes that have been added or, if they are links, to the exit.  So of the nodes that
were there before, only the entry changes, and it only gains arcs; nothing that was there before is
entered by a new transition, and nothing but the exit is entered at all (`lay_frame`).

What counts as added is fixed by a number `m`, from which on all nodes do, so that parts laid out
one after the other are put together without asking which of them has added a node
(`Built.trans`).  The parts of a part may have entries and exits of their own, as long as these
have been added (`Built.outer`).  In the network of a pattern no transition leads back to the
start (`added_of_dest`).
-/

namespace Multitouch

/-- The second node is the first one with more arcs, which come after those that it had. -/
structure Node.Gains (node node' : Node) : Prop where
  tag : node'.tag = node.tag
  links : node.links <+: node'.links
  dests : ∀ key target, node.table.dests key target <+: node'.table.dests key target

namespace Node

variable {node node₁ node₂ : Node}

theorem Gains.refl (node : Node) : node.Gains node :=
  ⟨rfl, List.prefix_rfl, fun _ _ => List.prefix_rfl⟩

theorem Gains.trans (h : node.Gains node₁) (h' : node₁.Gains node₂) : node.Gains node₂ :=
  ⟨h'.tag.trans h.tag, h.links.trans h'.links,
    fun key target => (h.dests key target).trans (h'.dests key target)⟩

end Node

namespace Network

theorem gains_link {N : Network} {a : Nat} (ha : a < N.size) (b n : Nat) :
    (N.node n).Gains ((N.link a b).node n) := by
  rw [link, node_modify N a _ n ha]
  split
  · next h =>
      rw [h]
      split
      · exact .refl _
      · exact ⟨rfl, List.prefix_append _ _, fun _ _ => List.prefix_rfl⟩
  · exact .refl _

theorem gains_connect {N : Network} {a : Nat} (ha : a < N.size) (key : Key) (target : String)
    (b n : Nat) : (N.node n).Gains ((N.connect a key target b).node n) := by
  rw [connect, node_modify N a _ n ha]
  split
  · next h =>
      rw [h]
      exact ⟨rfl, List.prefix_rfl, Table.dests_prefix_union _ _⟩
  · exact .refl _

/-- `N'` is built from `N` step by step.  Nodes are added with tags of which `P` holds.  Arcs are
put in from the entry or from a node from `m` on, and they lead to such a node or, if they are
links, to the exit. -/
inductive Built (P : Tag → Prop) (m entry exit : Nat) (N : Network) : Network → Prop where
  | refl : Built P m entry exit N N
  | add {N₁ : Network} {tag : Tag} :
      Built P m entry exit N N₁ → P tag → Built P m entry exit N (N₁.add tag)
  | openGroup {N₁ : Network} (name : Option String) :
      Built P m entry exit N N₁ → Built P m entry exit N (N₁.openGroup name).2
  | link {N₁ : Network} {a b : Nat} : Built P m entry exit N N₁ → a < N₁.size → b < N₁.size →
      (a = entry ∨ m ≤ a) → (m ≤ b ∨ b = exit) → Built P m entry exit N (N₁.link a b)
  | connect {N₁ : Network} {a b : Nat} (key : Key) (target : String) :
      Built P m entry exit N N₁ → a < N₁.size → b < N₁.size → (a = entry ∨ m ≤ a) → m ≤ b →
        Built P m entry exit N (N₁.connect a key target b)

variable {P : Tag → Prop} {m k entry exit entry' exit' : Nat} {N N₁ N₂ : Network}

namespace Built

theorem trans (h : Built P m entry exit N N₁) (h' : Built P m entry exit N₁ N₂) :
    Built P m entry exit N N₂ := by
  induction h' with
  | refl => exact h
  | add _ hP ih => exact .add ih hP
  | openGroup name _ ih => exact .openGroup name ih
  | link _ ha hb hsource hdest ih => exact .link ih ha hb hsource hdest
  | connect key target _ ha hb hsource hdest ih => exact .connect key target ih ha hb hsource hdest

/-- A part of a part starts and ends where this does, or in nodes that have been added. -/
theorem outer (h : Built P k entry' exit' N N₁) (hk : m ≤ k)
    (hentry : entry' = entry ∨ m ≤ entry') (hexit : m ≤ exit' ∨ exit' = exit) :
    Built P m entry exit N N₁ := by
  have hsource : ∀ {a}, a = entry' ∨ k ≤ a → a = entry ∨ m ≤ a := by
    rintro a (rfl | ha)
    · exact hentry
    · exact .inr (hk.trans ha)
  induction h with
  | refl => exact .refl
  | add _ hP ih => exact .add ih hP
  | openGroup name _ ih => exact .openGroup name ih
  | link _ ha hb hs hdest ih =>
      refine .link ih ha hb (hsource hs) ?_
      rcases hdest with hdest | rfl
      · exact .inl (hk.trans hdest)
      · exact hexit
  | connect key target _ ha hb hs hdest ih =>
      exact .connect key target ih ha hb (hsource hs) (hk.trans hdest)

theorem grows (h : Built P m entry exit N N₁) : Grows N N₁ := by
  induction h with
  | refl => exact .refl N
  | add _ _ ih => exact ih.trans (grows_add _ _)
  | openGroup name _ ih => exact ih.trans (grows_openGroup _ name)
  | link _ ha _ _ _ ih => exact ih.trans (grows_link ha _)
  | connect key target _ ha _ _ _ ih => exact ih.trans (grows_connect ha key target _)

/-- Where there are more arcs than before, they start and end as the operations allow. -/
theorem arc (h : Built P m entry exit N N₁) {a b : Nat} {l : Option (Key × String)}
    (hb : N₁.Arc a l b) :
    N.Arc a l b ∨ (a = entry ∨ m ≤ a) ∧ b < N₁.size ∧ (m ≤ b ∨ l = none ∧ b = exit) := by
  induction h with
  | refl => exact .inl hb
  | @add N₁ tag _ _ ih =>
      refine (ih (arc_add.mp hb)).imp_right fun ⟨hsource, hlt, hdest⟩ => ⟨hsource, ?_, hdest⟩
      exact hlt.trans (size_lt_add N₁ tag)
  | @openGroup N₁ name _ ih =>
      rw [size_openGroup]
      exact ih (arc_openGroup.mp hb)
  | @link N₁ _ _ _ ha hlt hsource hdest ih =>
      rw [size_link]
      rcases (arc_link ha).mp hb with hb | ⟨rfl, rfl, rfl⟩
      · exact ih hb
      · exact .inr ⟨hsource, hlt, hdest.imp_right fun he => ⟨rfl, he⟩⟩
  | connect key target _ ha hlt hsource hdest ih =>
      rw [size_connect]
      rcases (arc_connect ha).mp hb with hb | ⟨rfl, -, rfl⟩
      · exact ih hb
      · exact .inr ⟨hsource, hlt, .inl hdest⟩

/-- The nodes that are added have tags of which `P` holds. -/
theorem tag_added (h : Built P m entry exit N N₁) {n : Nat} (hn : N.size ≤ n)
    (hlt : n < N₁.size) : P (N₁.tag n) := by
  induction h with
  | refl => exact absurd hn (Nat.not_le.mpr hlt)
  | @add N₁ tag _ hP ih =>
      rw [tag_add]
      split
      · exact hP
      · next hne =>
          rw [size_add] at hlt
          exact ih (Nat.lt_of_le_of_ne (Nat.le_of_lt_succ hlt) hne)
  | @openGroup N₁ name _ ih =>
      rw [tag_openGroup]
      exact ih (size_openGroup N₁ name ▸ hlt)
  | link _ ha _ _ _ ih =>
      rw [tag_link ha]
      exact ih (size_link .. ▸ hlt)
  | connect key target _ ha _ _ _ ih =>
      rw [tag_connect ha]
      exact ih (size_connect .. ▸ hlt)

/-- The nodes that were there before only gain arcs. -/
theorem gains (h : Built P m entry exit N N₁) {n : Nat} (hn : n < N.size) :
    (N.node n).Gains (N₁.node n) := by
  induction h with
  | refl => exact .refl _
  | add h _ ih =>
      rw [node_add, if_neg (hn.trans_le h.grows.size_le).ne]
      exact ih
  | openGroup name _ ih => exact (node_openGroup ..).symm ▸ ih
  | link _ ha _ _ _ ih => exact ih.trans (gains_link ha _ _)
  | connect key target _ ha _ _ _ ih => exact ih.trans (gains_connect ha key target _ _)

/-- Of the nodes that were there before, only the entry changes. -/
theorem node_eq (h : Built P m entry exit N N₁) {n : Nat} (hn : n < N.size) (hm : n < m)
    (hne : n ≠ entry) : N₁.node n = N.node n := by
  have hother : ∀ {a}, a = entry ∨ m ≤ a → n ≠ a := by
    rintro a (rfl | ha)
    · exact hne
    · exact (hm.trans_le ha).ne
  induction h with
  | refl => rfl
  | add h _ ih => rw [node_add, if_neg (hn.trans_le h.grows.size_le).ne, ih]
  | openGroup name _ ih => rw [node_openGroup, ih]
  | @link N₁ a b _ ha _ hsource _ ih =>
      rw [Network.link, node_modify N₁ a _ n ha, if_neg (hother hsource), ih]
  | @connect N₁ a b key target _ ha _ hsource _ ih =>
      rw [Network.connect, node_modify N₁ a _ n ha, if_neg (hother hsource), ih]

end Built

/-! ### Copies -/

/-- The place reached is the entry or has been added, and whatever is added next counts as added. -/
structure Draft.Within (m entry exit : Nat) (d : Draft) : Prop where
  lt : d.node < d.network.size
  exit_lt : exit < d.network.size
  node : d.node = entry ∨ m ≤ d.node
  size : m ≤ d.network.size

/-- From `d` to `d'` the network has been built as it may be, and the place reached is as it may
be. -/
structure Stays (P : Tag → Prop) (m entry exit : Nat) (d d' : Draft) : Prop where
  built : Built P m entry exit d.network d'.network
  within : d'.Within m entry exit

variable {d d' d'' : Draft}

theorem Stays.refl (hd : d.Within m entry exit) : Stays P m entry exit d d :=
  ⟨.refl, hd⟩

theorem Stays.trans (h : Stays P m entry exit d d') (h' : Stays P m entry exit d' d'') :
    Stays P m entry exit d d'' :=
  ⟨h.built.trans h'.built, h'.within⟩

/-- One may go on from a node that has just been added. -/
theorem within_added {tag : Tag} (hd : d.Within m entry exit)
    (hs : N.size = (d.network.add tag).size) : Draft.Within m entry exit ⟨d.network.size, N⟩ where
  lt := hs ▸ size_lt_add _ tag
  exit_lt := hs ▸ hd.exit_lt.trans (size_lt_add _ tag)
  node := .inr hd.size
  size := hs ▸ hd.size.trans (size_lt_add _ tag).le

/-- The place reached may be left for nodes that have been added, and for the exit. -/
theorem stays_leave (hd : d.Within m entry exit) {b : Nat} (hlt : b < d.network.size)
    (hb : m ≤ b ∨ b = exit) : Stays P m entry exit d (d.leave b) where
  built := .link .refl hd.lt hlt hd.node hb
  within := ⟨(size_link ..).symm ▸ hd.lt, (size_link ..).symm ▸ hd.exit_lt, hd.node,
    (size_link ..).symm ▸ hd.size⟩

theorem stays_branch (hd : d.Within m entry exit) {tag : Tag} (hP : P tag) :
    Stays P m entry exit d (d.branch tag) where
  built := .link (.add .refl hP) (hd.lt.trans (size_lt_add _ tag)) (size_lt_add _ tag) hd.node
    (.inl hd.size)
  within := within_added hd (size_link ..)

theorem stays_advance (hd : d.Within m entry exit) (x : Action) {tag : Tag} (hP : P tag) :
    Stays P m entry exit d (d.advance x tag) where
  built := .connect x.key x.target (.add .refl hP) (hd.lt.trans (size_lt_add _ tag))
    (size_lt_add _ tag) hd.node hd.size
  within := within_added hd (size_connect ..)

section Copies

variable {pass : Draft → Draft}
  (hp : ∀ d : Draft, d.Within m entry exit → Stays P m entry exit d (pass d))
include hp

theorem stays_repeat (hd : d.Within m entry exit) (n : Nat) :
    Stays P m entry exit d (Nat.repeat pass n d) := by
  induction n with
  | zero => exact .refl hd
  | succ n ih => exact ih.trans (hp _ ih.within)

/-- Copies that may each be left for the exit. -/
theorem stays_upTo (hd : d.Within m entry exit) (n : Nat) :
    Stays P m entry exit d
      (Nat.repeat (fun d => (pass d).leave exit) n (d.leave exit)) := by
  have hleave : Stays P m entry exit d (d.leave exit) := stays_leave hd hd.exit_lt (.inr rfl)
  refine hleave.trans (stays_repeat (fun d hd => ?_) hleave.within n)
  have hpass := hp d hd
  exact hpass.trans (stays_leave hpass.within hpass.within.exit_lt (.inr rfl))

/-- Passes start in a node that has been added, since a loop leads back there. -/
theorem built_layPasses (hm : m ≤ entry) (hd : d.Within m entry exit) (r : Repetition) :
    Built P m entry exit d.network (layPasses exit r pass d) := by
  have hrequired := stays_repeat hp hd r.min
  unfold layPasses
  split
  · have honce := stays_upTo hp hrequired.within 1
    have hback : m ≤ (Nat.repeat pass r.min d).node :=
      hrequired.within.node.elim (fun he => he ▸ hm) id
    have hlt := hrequired.within.lt.trans_le honce.built.grows.size_le
    exact (hrequired.trans (honce.trans (stays_leave honce.within hlt (.inl hback)))).built
  · exact (hrequired.trans (stays_upTo hp hrequired.within _)).built

end Copies

theorem built_layAction (x : Action) (hi : entry < N.size) (ho : exit < N.size)
    (hP : P (N.tag exit)) : Built P N.size entry exit N (layAction entry exit x N) := by
  have hadvance : ∀ d : Draft, d.Within N.size entry exit →
      Stays P N.size entry exit d (d.advance x (N.tag exit)) :=
    fun _ hd => stays_advance hd x hP
  have hstart : Draft.Within N.size entry exit ⟨entry, N⟩ := ⟨hi, ho, .inl rfl, le_rfl⟩
  have hrequired := stays_repeat hadvance hstart x.repetition.min
  unfold layAction
  split
  · let required := Nat.repeat (Draft.advance x (N.tag exit)) x.repetition.min ⟨entry, N⟩
    let turning := if x.repetition.min = 0 then required.branch (N.tag exit) else required
    -- the loop turns in a node that has been added
    have hturning : Stays P N.size entry exit ⟨entry, N⟩ turning ∧ N.size ≤ turning.node := by
      unfold turning
      split
      · exact ⟨hrequired.trans (stays_branch hrequired.within hP), hrequired.within.size⟩
      · next hmin =>
          obtain ⟨n, hn⟩ := Nat.exists_eq_succ_of_ne_zero hmin
          refine ⟨hrequired, ?_⟩
          unfold required
          rw [hn]
          exact (stays_repeat hadvance hstart n).within.size
    have hleave := hturning.1.trans
      (stays_leave hturning.1.within hturning.1.within.exit_lt (.inr rfl))
    exact .connect x.key x.target hleave.built hleave.within.lt hleave.within.lt
      hleave.within.node hturning.2
  · exact (hrequired.trans (stays_upTo hadvance hrequired.within _)).built

/-! ### Expressions -/

theorem ofGroup_openGroup (N : Network) (name : Option String) : (N.openGroup name).1.OfGroup := by
  cases name <;> trivial

mutual

/-- **What is laid out is built within the entry, the exit and new nodes.** -/
theorem built_lay (hgroup : ∀ tag, tag.OfGroup → P tag) : ∀ (e : Expression)
    {entry exit : Nat} {N : Network}, entry < N.size → exit < N.size → P (N.tag exit) →
      Built P N.size entry exit N (lay entry exit e N)
  | .action x, _, _, _, hi, ho, hP => built_layAction x hi ho hP
  | .group name body r, entry, exit, N, hi, ho, _ => by
      have hs := size_openGroup N name
      have htag := hgroup _ (ofGroup_openGroup N name)
      have hstart : Draft.Within N.size entry exit ⟨entry, (N.openGroup name).2⟩ :=
        ⟨hs.symm ▸ hi, hs.symm ▸ ho, .inl rfl, hs.ge⟩
      have hbranch := stays_branch hstart htag
      let d := (Draft.mk entry (N.openGroup name).2).branch (N.openGroup name).1
      -- the passes start in a node of their own
      have hpasses : Built P N.size d.node exit d.network
          (layPasses exit r (layBody (N.openGroup name).1 body) d) :=
        built_layPasses (fun _ hd => stays_layBody hgroup htag body hd) hs.ge
          ⟨hbranch.within.lt, hbranch.within.exit_lt, .inl rfl, hbranch.within.size⟩ r
      have hopened : Built P N.size entry exit N (N.openGroup name).2 := .openGroup name .refl
      exact hopened.trans (hbranch.built.trans (hpasses.outer le_rfl (.inr hs.ge) (.inr rfl)))
  | .options alternatives, _, _, _, hi, ho, hP =>
      built_layOptions hgroup alternatives hi ho hP

theorem stays_layBody (hgroup : ∀ tag, tag.OfGroup → P tag) {tag : Tag} (hP : P tag) :
    ∀ (es : List Expression) {m entry exit : Nat} {d : Draft}, d.Within m entry exit →
      Stays P m entry exit d (layBody tag es d)
  | [], _, _, _, _, hd => .refl hd
  | e :: es, m, entry, exit, d, hd => by
      have hs := size_lt_add d.network tag
      have htag : P ((d.network.add tag).tag d.network.size) := by
        rwa [tag_add, if_pos rfl]
      have hmember := built_lay hgroup e (hd.lt.trans hs) hs htag
      have hadded : Built P m entry exit _ _ :=
        hmember.outer (hd.size.trans hs.le) hd.node (.inl hd.size)
      have hle := hmember.grows.size_le
      have hnext : Draft.Within m entry exit
          ⟨d.network.size, lay d.node d.network.size e (d.network.add tag)⟩ :=
        ⟨hs.trans_le hle, (hd.exit_lt.trans hs).trans_le hle, .inr hd.size,
          (hd.size.trans hs.le).trans hle⟩
      have hadd : Built P m entry exit d.network (d.network.add tag) := .add .refl hP
      exact .trans ⟨hadd.trans hadded, hnext⟩ (stays_layBody hgroup hP es hnext)

theorem built_layOptions (hgroup : ∀ tag, tag.OfGroup → P tag) : ∀ (es : List Expression)
    {entry exit : Nat} {N : Network}, entry < N.size → exit < N.size → P (N.tag exit) →
      Built P N.size entry exit N (layOptions entry exit es N)
  | [], _, _, _, _, _, _ => .refl
  | e :: es, _, _, _, hi, ho, hP => by
      have hfirst := built_lay hgroup e hi ho hP
      have hle := hfirst.grows.size_le
      have hothers := built_layOptions hgroup es (hi.trans_le hle) (ho.trans_le hle)
        ((hfirst.grows.tag ho).symm ▸ hP)
      exact hfirst.trans (hothers.outer hle (.inl rfl) (.inr rfl))

end

/-- **Laying out touches only its own part of a network.**  Nodes are only added.  Of those that
were there before only the entry changes, and it only gains arcs.  All arcs that are new leave from
the entry or from new nodes, and they lead to new nodes or, if they are links, to the exit; none
leads to the entry.  The new nodes that transitions lead to have tags of groups if the exit has. -/
theorem lay_frame (e : Expression) {entry exit : Nat} {N : Network} (hi : entry < N.size)
    (ho : exit < N.size) (hne : entry ≠ exit) :
    let N' := lay entry exit e N
    N.size ≤ N'.size ∧ (∀ n < N.size, n ≠ entry → N'.node n = N.node n) ∧
      (N.node entry).Gains (N'.node entry) ∧
      (∀ a l b, N'.Arc a l b → ¬ N.Arc a l b →
        (a = entry ∨ N.size ≤ a ∧ a < N'.size) ∧ b ≠ entry ∧
          (N.size ≤ b ∧ b < N'.size ∨ l = none ∧ b = exit)) ∧
      ∀ a key target b, N'.Arc a (some (key, target)) b → ¬ N.Arc a (some (key, target)) b →
        N.size ≤ b ∧ b < N'.size ∧ ((N.tag exit).OfGroup → (N'.tag b).OfGroup) := by
  intro N'
  have hbuilt : Built (fun tag => (N.tag exit).OfGroup → tag.OfGroup) N.size entry exit N N' :=
    built_lay (fun _ htag _ => htag) e hi ho id
  have hnew : ∀ a l b, N'.Arc a l b → ¬ N.Arc a l b → (a = entry ∨ N.size ≤ a) ∧
      b < N'.size ∧ (N.size ≤ b ∨ l = none ∧ b = exit) :=
    fun a l b hb hold => (hbuilt.arc hb).resolve_left hold
  refine ⟨hbuilt.grows.size_le, fun n hn hother => hbuilt.node_eq hn hn hother, hbuilt.gains hi,
    fun a l b hb hold => ?_, fun a key target b hb hold => ?_⟩
  · obtain ⟨hsource, hlt, hdest⟩ := hnew a l b hb hold
    refine ⟨hsource.imp_right fun ha => ⟨ha, hb.source_lt⟩, ?_,
      hdest.imp_left fun hle => ⟨hle, hlt⟩⟩
    rcases hdest with hle | ⟨-, rfl⟩
    · exact (hi.trans_le hle).ne'
    · exact hne.symm
  · obtain ⟨-, hlt, hle | ⟨hl, -⟩⟩ := hnew a _ b hb hold
    · exact ⟨hle, hlt, hbuilt.tag_added hle hlt⟩
    · cases hl

/-- A contact that moves any number of times, or a second one that is pressed. -/
def moveOrPress : Expression :=
  .options [.action ⟨⟨.move, 1⟩, ".*", .any⟩, .action ⟨⟨.press, 2⟩, ".*", .once⟩]

/-- The loop of the first alternative turns in a node of its own, so that the second one may share
the entry. -/
theorem lay_frame_moveOrPress :
    initial < ends.size ∧ final < ends.size ∧ initial ≠ final ∧
      (lay initial final moveOrPress ends).node final = ends.node final ∧
      ∀ a l b, (lay initial final moveOrPress ends).Arc a l b → b ≠ initial := by
  have hi : initial < ends.size := by decide
  have ho : final < ends.size := by decide
  have hne : initial ≠ final := by decide
  obtain ⟨-, hnode, -, harc, -⟩ := lay_frame moveOrPress hi ho hne
  exact ⟨hi, ho, hne, hnode final ho hne.symm,
    fun a l b hb => (harc a l b hb not_arc_ends).2.1⟩

/-- **Transitions lead to nodes of their own**, neither to the initial nor to the final node. -/
theorem added_of_dest {es : List Expression} {n d : Nat} {key : Key} {target : String}
    (h : d ∈ (ofExpressions es).dests n key target) : d ≠ initial ∧ d ≠ final := by
  have hpattern : Built (fun _ => True) ends.size initial final ends (ofExpressions es) :=
    built_lay (fun _ _ => trivial) (.group (some Tag.topName) es .once) (by decide) (by decide)
      trivial
  have hadded : ends.size ≤ d := by
    rcases hpattern.arc (l := some (key, target)) h with harc | ⟨-, -, hnew | ⟨hl, -⟩⟩
    · exact (not_arc_ends harc).elim
    · exact hnew
    · cases hl
  have hs : ends.size = 2 := rfl
  unfold initial final
  omega

end Network

end Multitouch
