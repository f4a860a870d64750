import Mathlib.Logic.Function.Basic
import Multitouch.Proofs.Language.Layouts
import Multitouch.Proofs.Networks
import Multitouch.Proofs.Unrolled

/-!
# What an unrolled expression reads

An assignment of languages to the nodes of a network is *valid* if it allows for every arc: what
is assigned to the end of the arc, after what the arc is taken down as, is among what is assigned
to its start.  It may also have to allow for stopping at every node, with `F` assigned to each:
with `0` it need not, and the least valid assignment that gives the final node the empty word are
the words that are read up to there; with `1` it is what can be read at all.

So an expression that is laid out between `entry` and `exit` stands for the layout `l` if two
things hold (`Joins`).  Any valid assignment gives the entry all that is read ahead of `l` with
what is assigned to the exit.  And if the nodes that were there before have a valid assignment with
that property, then the new nodes can be given languages that make it valid for the whole: the new
nodes add nothing.  The second part is what allows entries to be shared and loops to be closed: no
path is ever looked at.  A loop is closed on a node which is assigned just the language that the
loop needs (`Moves.loop`), and for that the node must be a new one.
-/

open scoped Computability

namespace Multitouch.Network

variable {α : Type} {ρ : Letters α} {F : Language α}

/-! ### Valid assignments -/

/-- What an arc to `b` is taken down as. -/
def reads (ρ : Letters α) (N : Network) (b : Nat) : Option (Key × String) → Language α
  | none => 1
  | some (key, target) => ρ key target (N.tag b)

/-- The assignment allows for every arc of the network, and for stopping with `F` at every node. -/
structure Valid (ρ : Letters α) (F : Language α) (N : Network) (X : Nat → Language α) : Prop where
  stop : ∀ n, F ≤ X n
  arc : ∀ a l b, N.Arc a l b → N.reads ρ b l * X b ≤ X a

variable {N N₁ N₂ : Network} {X Y : Nat → Language α}

theorem reads_congr {b : Nat} (h : N₁.tag b = N.tag b) (l : Option (Key × String)) :
    N₁.reads ρ b l = N.reads ρ b l := by
  cases l with
  | none => rfl
  | some l => exact congrArg (ρ l.1 l.2) h

theorem Grows.valid (h : Grows N N₁) (hN : N.Wired) (hX : Valid ρ F N₁ X) : Valid ρ F N X where
  stop := hX.stop
  arc a l b hb := by
    rw [← reads_congr (h.tag (hN a l b hb))]
    exact hX.arc a l b (h.arc hb)

theorem Valid.add (h : Valid ρ F N X) (hN : N.Wired) (tag : Tag) : Valid ρ F (N.add tag) X where
  stop := h.stop
  arc a l b hb := by
    rw [arc_add] at hb
    rw [reads_congr ((grows_add N tag).tag (hN a l b hb))]
    exact h.arc a l b hb

theorem valid_openGroup {name : Option String} :
    Valid ρ F (N.openGroup name).2 X ↔ Valid ρ F N X := by
  cases name <;> exact ⟨fun h => ⟨h.stop, h.arc⟩, fun h => ⟨h.stop, h.arc⟩⟩

theorem valid_link {a b : Nat} (ha : a < N.size) :
    Valid ρ F (N.link a b) X ↔ Valid ρ F N X ∧ X b ≤ X a := by
  have hreads : ∀ y l, (N.link a b).reads ρ y l = N.reads ρ y l :=
    fun y => reads_congr (tag_link ha b y)
  constructor
  · intro h
    refine ⟨⟨h.stop, fun x l y hy => ?_⟩, ?_⟩
    · rw [← hreads]
      exact h.arc x l y ((arc_link ha).mpr (.inl hy))
    · simpa [reads] using h.arc a none b ((arc_link ha).mpr (.inr ⟨rfl, rfl, rfl⟩))
  · rintro ⟨h, hab⟩
    refine ⟨h.stop, fun x l y hy => ?_⟩
    rw [hreads]
    rcases (arc_link ha).mp hy with hy | ⟨rfl, rfl, rfl⟩
    · exact h.arc x l y hy
    · simpa [reads] using hab

theorem valid_connect {a b : Nat} {key : Key} {target : String} (ha : a < N.size) :
    Valid ρ F (N.connect a key target b) X ↔
      Valid ρ F N X ∧ ρ key target (N.tag b) * X b ≤ X a := by
  have hreads : ∀ y l, (N.connect a key target b).reads ρ y l = N.reads ρ y l :=
    fun y => reads_congr (tag_connect ha key target b y)
  constructor
  · intro h
    refine ⟨⟨h.stop, fun x l y hy => ?_⟩, ?_⟩
    · rw [← hreads]
      exact h.arc x l y ((arc_connect ha).mpr (.inl hy))
    · have harc := h.arc a (some (key, target)) b ((arc_connect ha).mpr (.inr ⟨rfl, rfl, rfl⟩))
      rwa [hreads] at harc
  · rintro ⟨h, hab⟩
    refine ⟨h.stop, fun x l y hy => ?_⟩
    rw [hreads]
    rcases (arc_connect ha).mp hy with hy | ⟨rfl, rfl, rfl⟩
    · exact h.arc x l y hy
    · exact hab

/-- Only what is assigned to nodes of the network matters. -/
theorem Valid.congr (h : Valid ρ F N X) (hN : N.Wired) (hF : ∀ n, F ≤ Y n)
    (hXY : ∀ n < N.size, Y n = X n) : Valid ρ F N Y where
  stop := hF
  arc a l b hb := by
    rw [hXY a hb.source_lt, hXY b (hN a l b hb)]
    exact h.arc a l b hb

/-! ### Laying out between two nodes -/

/-- The network `N'` is `N` with the layout `l` between `entry` and `exit`, in a group with the
tag. -/
structure Joins (ρ : Letters α) (F : Language α) (l : Layout) (tag : Tag) (entry exit : Nat)
    (N N' : Network) : Prop where
  grows : Grows N N'
  wired : N'.Wired
  complete : ∀ X, Valid ρ F N' X → l.ahead ρ F tag (X exit) ≤ X entry
  sound : ∀ Y, Valid ρ F N Y → l.ahead ρ F tag (Y exit) ≤ Y entry →
    ∃ Y', Valid ρ F N' Y' ∧ ∀ n < N.size, Y' n = Y n

/-- The layout leads on from the place `d` to the new node `d'`: the new node can be assigned any
language that may be read after the layout at `d`. -/
structure Moves (ρ : Letters α) (F : Language α) (l : Layout) (tag : Tag) (d d' : Draft) :
    Prop where
  grows : Grows d.network d'.network
  wired : d'.network.Wired
  inside : d'.node < d'.network.size
  complete : ∀ X, Valid ρ F d'.network X → l.ahead ρ F tag (X d'.node) ≤ X d.node
  sound : ∀ Y Z, Valid ρ F d.network Y → F ≤ Z → l.ahead ρ F tag Z ≤ Y d.node →
    ∃ Y', Valid ρ F d'.network Y' ∧ (∀ n < d.network.size, Y' n = Y n) ∧ Y' d'.node = Z

/-- A pass goes on to a new node, or, like a pass over an empty body, does nothing. -/
def Passes (ρ : Letters α) (F : Language α) (l : Layout) (tag : Tag) (d d' : Draft) : Prop :=
  Moves ρ F l tag d d' ∨ (∀ Z, F ≤ Z → l.ahead ρ F tag Z = Z) ∧ d' = d

variable {l m : Layout} {tag : Tag} {entry exit : Nat} {d d₁ d₂ : Draft}

theorem joins_never (hN : N.Wired) : Joins ρ F .never tag entry exit N N where
  grows := .refl N
  wired := hN
  complete _ hX := Layout.ahead_never.trans_le (hX.stop entry)
  sound Y hY _ := ⟨Y, hY, fun _ _ => rfl⟩

theorem joins_link (hN : N.Wired) (hi : entry < N.size) (ho : exit < N.size) :
    Joins ρ F .skip tag entry exit N (N.link entry exit) where
  grows := grows_link hi exit
  wired := hN.link hi ho
  complete X hX := by
    rw [Layout.ahead_skip (hX.stop exit)]
    exact ((valid_link hi).mp hX).2
  sound Y hY hl := by
    rw [Layout.ahead_skip (hY.stop exit)] at hl
    exact ⟨Y, (valid_link hi).mpr ⟨hY, hl⟩, fun _ _ => rfl⟩

theorem joins_connect (key : Key) (target : String) (hN : N.Wired) (hi : entry < N.size)
    (ho : exit < N.size) :
    Joins ρ F (.act key target) (N.tag exit) entry exit N (N.connect entry key target exit) where
  grows := grows_connect hi key target exit
  wired := hN.connect hi ho
  complete X hX := by
    rw [Layout.ahead_act (hX.stop exit)]
    exact add_le ((valid_connect hi).mp hX).2 (hX.stop entry)
  sound Y hY hl := by
    rw [Layout.ahead_act (hY.stop exit), add_le_iff] at hl
    exact ⟨Y, (valid_connect hi).mpr ⟨hY, hl.1⟩, fun _ _ => rfl⟩

theorem Joins.congr {inner : Tag} (h : Joins ρ F l inner entry exit N N₁)
    (hlm : ∀ Z, F ≤ Z → m.ahead ρ F tag Z = l.ahead ρ F inner Z) :
    Joins ρ F m tag entry exit N N₁ where
  grows := h.grows
  wired := h.wired
  complete X hX := (hlm _ (hX.stop exit)).trans_le (h.complete X hX)
  sound Y hY hm := h.sound Y hY ((hlm _ (hY.stop exit)).ge.trans hm)

/-- Alternatives may share the entry and the exit. -/
theorem Joins.either (h : Joins ρ F l tag entry exit N N₁)
    (h' : Joins ρ F m tag entry exit N₁ N₂) (hi : entry < N.size) (ho : exit < N.size) :
    Joins ρ F (.either l m) tag entry exit N N₂ where
  grows := h.grows.trans h'.grows
  wired := h'.wired
  complete X hX := by
    rw [Layout.ahead_either]
    exact add_le (h.complete X (h'.grows.valid h.wired hX)) (h'.complete X hX)
  sound Y hY hl := by
    rw [Layout.ahead_either, add_le_iff] at hl
    obtain ⟨Y₁, hY₁, hs₁⟩ := h.sound Y hY hl.1
    obtain ⟨Y₂, hY₂, hs₂⟩ := h'.sound Y₁ hY₁ (by rw [hs₁ _ hi, hs₁ _ ho]; exact hl.2)
    exact ⟨Y₂, hY₂, fun n hn => (hs₂ n (hn.trans_le h.grows.size_le)).trans (hs₁ n hn)⟩

/-- What is laid out to a node that has just been added leads to a new place. -/
theorem Joins.moves {inner : Tag}
    (h : Joins ρ F l tag d.node d.network.size (d.network.add inner) N) (hd : d.network.Wired)
    (hi : d.node < d.network.size) : Moves ρ F l tag d ⟨d.network.size, N⟩ where
  grows := (grows_add _ inner).trans h.grows
  wired := h.wired
  inside := by
    have := h.grows.size_le
    rw [size_add] at this
    exact this
  complete := h.complete
  sound Y Z hY hZ hl := by
    -- no arc leads to or from a node that has just been added, so it can be assigned anything
    have hstop : ∀ n, F ≤ Function.update Y d.network.size Z n := fun n => by
      rw [Function.update_apply]
      split
      · exact hZ
      · exact hY.stop n
    have hY' : Valid ρ F (d.network.add inner) (Function.update Y d.network.size Z) :=
      (hY.congr hd hstop fun n hn => Function.update_of_ne hn.ne _ _).add hd inner
    obtain ⟨Y', hv, hs⟩ := h.sound _ hY' (by
      rwa [Function.update_self, Function.update_of_ne hi.ne])
    rw [size_add] at hs
    refine ⟨Y', hv, fun n hn => ?_, ?_⟩
    · rw [hs n (Nat.lt_succ_of_lt hn), Function.update_of_ne hn.ne]
    · rw [hs _ (Nat.lt_succ_self _), Function.update_self]

/-! ### One after the other -/

theorem Moves.congr (h : Moves ρ F l tag d d₁)
    (hlm : ∀ Z, F ≤ Z → m.ahead ρ F tag Z = l.ahead ρ F tag Z) : Moves ρ F m tag d d₁ where
  grows := h.grows
  wired := h.wired
  inside := h.inside
  complete X hX := (hlm _ (hX.stop _)).trans_le (h.complete X hX)
  sound Y Z hY hZ hm := h.sound Y Z hY hZ ((hlm Z hZ).ge.trans hm)

theorem Moves.trans (h : Moves ρ F l tag d d₁) (h' : Moves ρ F m tag d₁ d₂) :
    Moves ρ F (.row l m) tag d d₂ where
  grows := h.grows.trans h'.grows
  wired := h'.wired
  inside := h'.inside
  complete X hX := by
    rw [Layout.ahead_row]
    exact (Layout.ahead_mono (h'.complete X hX)).trans
      (h.complete X (h'.grows.valid h.wired hX))
  sound Y Z hY hZ hl := by
    rw [Layout.ahead_row] at hl
    obtain ⟨Y₁, hY₁, hs₁, hd₁⟩ := h.sound Y _ hY Layout.le_ahead hl
    obtain ⟨Y₂, hY₂, hs₂, hd₂⟩ := h'.sound Y₁ Z hY₁ hZ hd₁.ge
    exact ⟨Y₂, hY₂, fun n hn => (hs₂ n (hn.trans_le h.grows.size_le)).trans (hs₁ n hn), hd₂⟩

theorem Moves.passes (h : Moves ρ F l tag d d₁) (h' : Passes ρ F m tag d₁ d₂) :
    Moves ρ F (.row l m) tag d d₂ := by
  rcases h' with h' | ⟨hm, rfl⟩
  · exact h.trans h'
  · exact h.congr fun Z hZ => by rw [Layout.ahead_row, hm Z hZ]

theorem Passes.moves (h : Passes ρ F l tag d d₁) (h' : Moves ρ F m tag d₁ d₂) :
    Moves ρ F (.row l m) tag d d₂ := by
  rcases h with h | ⟨hl, rfl⟩
  · exact h.trans h'
  · exact h'.congr fun Z _ => by rw [Layout.ahead_row, hl _ Layout.le_ahead]

theorem Passes.trans (h : Passes ρ F l tag d d₁) (h' : Passes ρ F m tag d₁ d₂) :
    Passes ρ F (.row l m) tag d d₂ := by
  rcases h' with h' | ⟨hm, rfl⟩
  · exact .inl (h.moves h')
  rcases h with h | ⟨hl, rfl⟩
  · exact .inl (h.passes (.inr ⟨hm, rfl⟩))
  · exact .inr ⟨fun Z hZ => by rw [Layout.ahead_row, hm Z hZ, hl Z hZ], rfl⟩

theorem Moves.joins (h : Moves ρ F l tag d d₁) (h' : Joins ρ F m tag d₁.node exit d₁.network N)
    (ho : exit < d.network.size) : Joins ρ F (.row l m) tag d.node exit d.network N where
  grows := h.grows.trans h'.grows
  wired := h'.wired
  complete X hX := by
    rw [Layout.ahead_row]
    exact (Layout.ahead_mono (h'.complete X hX)).trans
      (h.complete X (h'.grows.valid h.wired hX))
  sound Y hY hl := by
    rw [Layout.ahead_row] at hl
    obtain ⟨Y₁, hY₁, hs₁, hd₁⟩ := h.sound Y _ hY Layout.le_ahead hl
    obtain ⟨Y₂, hY₂, hs₂⟩ := h'.sound Y₁ hY₁ (by rw [hs₁ _ ho, hd₁])
    exact ⟨Y₂, hY₂, fun n hn => (hs₂ n (hn.trans_le h.grows.size_le)).trans (hs₁ n hn)⟩

theorem Passes.grows (h : Passes ρ F l tag d d₁) : Grows d.network d₁.network := by
  rcases h with h | ⟨-, rfl⟩
  · exact h.grows
  · exact .refl _

theorem Passes.complete (h : Passes ρ F l tag d d₁) (hX : Valid ρ F d₁.network X) :
    l.ahead ρ F tag (X d₁.node) ≤ X d.node := by
  rcases h with h | ⟨hl, rfl⟩
  · exact h.complete X hX
  · rw [hl _ (hX.stop _)]

theorem Passes.sound (h : Passes ρ F l tag d d₁) {Z : Language α} (hY : Valid ρ F d.network Y)
    (hZ : F ≤ Z) (hl : l.ahead ρ F tag Z ≤ Y d.node) :
    ∃ Y', Valid ρ F d₁.network Y' ∧ (∀ n < d.network.size, Y' n = Y n) ∧ Z ≤ Y' d₁.node := by
  rcases h with h | ⟨hidle, rfl⟩
  · obtain ⟨Y', hY', hs, hd⟩ := h.sound Y Z hY hZ hl
    exact ⟨Y', hY', hs, hd.ge⟩
  · exact ⟨Y, hY, fun _ _ => rfl, by rwa [hidle Z hZ] at hl⟩

theorem Passes.joins (h : Passes ρ F l tag d d₁) (h' : Joins ρ F m tag d₁.node exit d₁.network N)
    (ho : exit < d.network.size) : Joins ρ F (.row l m) tag d.node exit d.network N := by
  rcases h with h | ⟨hl, rfl⟩
  · exact h.joins h' ho
  · exact h'.congr fun Z _ => by rw [Layout.ahead_row, hl _ Layout.le_ahead]

/-! ### Places to go on from -/

/-- The network of the draft is wired, and it has the place reached and the exit. -/
structure Draft.Ready (exit : Nat) (d : Draft) : Prop where
  wired : d.network.Wired
  inside : d.node < d.network.size
  exit_lt : exit < d.network.size

theorem Moves.ready (h : Moves ρ F l tag d d₁) (ho : exit < d.network.size) : d₁.Ready exit :=
  ⟨h.wired, h.inside, ho.trans_le h.grows.size_le⟩

theorem Passes.ready (h : Passes ρ F l tag d d₁) (hd : d.Ready exit) : d₁.Ready exit := by
  rcases h with h | ⟨-, rfl⟩
  · exact h.ready hd.exit_lt
  · exact hd

theorem Draft.Ready.leave (hd : d.Ready exit) : (d.leave exit).Ready exit :=
  ⟨hd.wired.link hd.inside hd.exit_lt, (size_link ..).symm ▸ hd.inside,
    (size_link ..).symm ▸ hd.exit_lt⟩

theorem moves_advance (a : Action) (tag : Tag) (hd : d.Ready exit) :
    Moves ρ F (.act a.key a.target) tag d (d.advance a tag) := by
  have hs := size_lt_add d.network tag
  have hjoins : Joins ρ F _ _ _ _ _ _ :=
    joins_connect a.key a.target (hd.wired.add tag) (hd.inside.trans hs) hs
  rw [tag_add, if_pos rfl] at hjoins
  exact hjoins.moves hd.wired hd.inside

theorem tag_advance (a : Action) (tag : Tag) (hd : d.node < d.network.size) :
    (d.advance a tag).network.tag (d.advance a tag).node = tag := by
  rw [Draft.advance, tag_connect (hd.trans (size_lt_add _ tag)), tag_add, if_pos rfl]

theorem tag_branch (tag : Tag) (hd : d.node < d.network.size) :
    (d.branch tag).network.tag (d.branch tag).node = tag := by
  rw [Draft.branch, tag_link (hd.trans (size_lt_add _ tag)), tag_add, if_pos rfl]

theorem moves_branch (inner : Tag) (hd : d.Ready exit) :
    Moves ρ F .skip tag d (d.branch inner) := by
  have hs := size_lt_add d.network inner
  exact (joins_link (hd.wired.add inner) (hd.inside.trans hs) hs).moves hd.wired hd.inside

theorem joins_leave (hd : d.Ready exit) :
    Joins ρ F .skip tag d.node exit d.network (d.leave exit).network :=
  joins_link hd.wired hd.inside hd.exit_lt

/-! ### Copies in a row, and loops -/

section Copies

variable {pass : Draft → Draft} {p : Plan}

/-- What leads from a new node back to it may be gone through any number of times. -/
theorem Moves.loop (h : Moves ρ F l tag d d₁)
    (hl : Joins ρ F m tag d₁.node d₁.node (d₁.leave exit).network N)
    (ho : exit < d.network.size) :
    Joins ρ F (.row l (.loop m)) tag d.node exit d.network N := by
  have hd₁ := h.ready ho
  have hleave : Joins ρ F .skip tag _ _ _ _ := joins_leave hd₁
  refine ⟨(h.grows.trans hleave.grows).trans hl.grows, hl.wired, fun X hX => ?_,
    fun Y hY hle => ?_⟩
  · have hturn := hl.complete X hX
    have hX₁ := hl.grows.valid hleave.wired hX
    have hexit := hleave.complete X hX₁
    rw [Layout.ahead_skip (hX.stop exit)] at hexit
    rw [Layout.ahead_row]
    exact (Layout.ahead_mono (Layout.ahead_loop_le hexit hturn)).trans
      (h.complete X (hleave.grows.valid h.wired hX₁))
  · rw [Layout.ahead_row] at hle
    -- the new node is assigned all turns of the loop, of which the link back adds one more
    obtain ⟨Y₁, hY₁, hs₁, hn₁⟩ := h.sound Y _ hY Layout.le_ahead hle
    have hexit : Layout.skip.ahead ρ F tag (Y₁ exit) ≤ Y₁ d₁.node := by
      rw [Layout.ahead_skip (hY₁.stop exit), hn₁, hs₁ exit ho]
      exact Layout.le_ahead_loop
    obtain ⟨Y₂, hY₂, hs₂⟩ := hleave.sound Y₁ hY₁ hexit
    have hturn : m.ahead ρ F tag (Y₂ d₁.node) ≤ Y₂ d₁.node := by
      rw [hs₂ _ hd₁.inside, hn₁]
      exact Layout.ahead_turn
    obtain ⟨Y₃, hY₃, hs₃⟩ := hl.sound Y₂ hY₂ hturn
    refine ⟨Y₃, hY₃, fun n hn => ?_⟩
    have hn₁ := hn.trans_le h.grows.size_le
    rw [hs₃ n (hn₁.trans_le hleave.grows.size_le), hs₂ n hn₁, hs₁ n hn]

/-- A pass that may be left for the exit and leads back to where it started. -/
theorem joins_turn (hd : d.Ready exit) (hp : Passes ρ F l tag (d.leave exit) d₁) :
    Joins ρ F l tag d.node d.node (d.leave exit).network
      ((d₁.leave exit).leave d.node).network := by
  have hd₁ := hp.ready hd.leave
  have hexit : Joins ρ F .skip tag _ _ _ _ := joins_leave hd₁
  have hback : Joins ρ F .skip tag _ _ _ _ := joins_link hd₁.leave.wired hd₁.leave.inside
    ((hd.leave.inside.trans_le hp.grows.size_le).trans_le hexit.grows.size_le)
  refine ⟨(hp.grows.trans hexit.grows).trans hback.grows, hback.wired, fun X hX => ?_,
    fun Y hY hl => ?_⟩
  · have hX₁ := hback.complete X hX
    rw [Layout.ahead_skip (hX.stop _)] at hX₁
    exact (Layout.ahead_mono hX₁).trans
      (hp.complete (hexit.grows.valid hd₁.wired (hback.grows.valid hd₁.leave.wired hX)))
  · -- the exit is allowed for after the pass, since it is before it
    have hYexit := ((valid_link hd.inside).mp hY).2
    obtain ⟨Y₁, hY₁, hs₁, hn₁⟩ := hp.sound hY (hY.stop _) hl
    obtain ⟨Y₂, hY₂, hs₂⟩ := hexit.sound Y₁ hY₁ (by
      rw [Layout.ahead_skip (hY₁.stop _), hs₁ _ hd.leave.exit_lt]
      exact hYexit.trans hn₁)
    obtain ⟨Y₃, hY₃, hs₃⟩ := hback.sound Y₂ hY₂ (by
      rw [Layout.ahead_skip (hY₂.stop _), hs₂ _ (hd.leave.inside.trans_le hp.grows.size_le),
        hs₁ _ hd.leave.inside, show (d₁.leave exit).node = d₁.node from rfl, hs₂ _ hd₁.inside]
      exact hn₁)
    refine ⟨Y₃, hY₃, fun n hn => ?_⟩
    have hn₁ := hn.trans_le hp.grows.size_le
    rw [hs₃ n (hn₁.trans_le hexit.grows.size_le), hs₂ n hn₁, hs₁ n hn]

/-! ### Copies and their plans -/

variable (hg : ∀ d : Draft, (pass d).network.groups = (p d.network.groups).2)
include hg

theorem groups_repeat (k : Nat) (d : Draft) :
    (Nat.repeat pass k d).network.groups = (p.copies k d.network.groups).2 := by
  induction k with
  | zero => rfl
  | succ k ih => exact (hg _).trans (congrArg (fun n => (p n).2) ih)

theorem groups_upTo (exit k : Nat) : ∀ d : Draft,
    (Nat.repeat (fun d => (pass d).leave exit) k d).network.groups =
      (p.upTo k d.network.groups).2 := by
  induction k with
  | zero => exact fun _ => rfl
  | succ k ih =>
      intro d
      rw [repeat_succ]
      exact (ih _).trans (congrArg (fun n => (p.upTo k n).2) (hg d))

theorem groups_layPasses (exit : Nat) (r : Repetition) (d : Draft) :
    (layPasses exit r pass d).groups = (p.repeated r d.network.groups).2 := by
  have hrequired : ((Nat.repeat pass r.min d).leave exit).network.groups =
      (p.copies r.min d.network.groups).2 := groups_repeat hg r.min d
  unfold layPasses Plan.repeated
  cases r.max with
  | none => exact (hg _).trans (congrArg (fun n => (p n).2) hrequired)
  | some most =>
      exact (groups_upTo hg exit _ _).trans (congrArg (fun n => (p.upTo _ n).2) hrequired)

variable (hp : ∀ d : Draft, d.Ready exit → Passes ρ F (p d.network.groups).1 tag d (pass d))
include hp

theorem passes_repeat (hd : d.Ready exit) (k : Nat) :
    Passes ρ F (p.copies k d.network.groups).1 tag d (Nat.repeat pass k d) := by
  induction k with
  | zero => exact .inr ⟨fun _ => Layout.ahead_skip, rfl⟩
  | succ k ih =>
      have hpass := hp _ (ih.ready hd)
      rw [groups_repeat hg] at hpass
      exact ih.trans hpass

/-- Copies that may each be left for the exit. -/
theorem joins_upTo (k : Nat) : ∀ {d : Draft}, d.Ready exit →
    Joins ρ F (p.upTo k d.network.groups).1 tag d.node exit d.network
      (Nat.repeat (fun d => (pass d).leave exit) k (d.leave exit)).network := by
  induction k with
  | zero => exact fun hd => joins_leave hd
  | succ k ih =>
      intro d hd
      have hpass := hp _ hd.leave
      have hrest := ih (hpass.ready hd.leave)
      rw [hg] at hrest
      rw [repeat_succ]
      -- the copies are left here, or one more is made and then they are left later
      exact (joins_leave hd).either (hpass.joins hrest hd.leave.exit_lt) hd.inside hd.exit_lt

/-- The required copies, and then a loop or the optional copies. -/
theorem joins_layPasses (h : Moves ρ F .skip tag d d₁) (ho : exit < d.network.size)
    (r : Repetition) :
    Joins ρ F (p.repeated r d₁.network.groups).1 tag d.node exit d.network
      (layPasses exit r pass d₁) := by
  have hrequired := h.passes (passes_repeat hg hp (h.ready ho) r.min)
  have hready := hrequired.ready ho
  have hskip : ∀ (c m : Layout) (Z : Language α),
      (Layout.row c m).ahead ρ F tag Z =
        (Layout.row (.row .skip c) m).ahead ρ F tag Z := fun c m Z => by
    rw [Layout.ahead_row, Layout.ahead_row, Layout.ahead_row, Layout.ahead_skip Layout.le_ahead]
  unfold layPasses Plan.repeated
  cases r.max with
  | none =>
      have hpass := hp _ hready.leave
      rw [show ((Nat.repeat pass r.min d₁).leave exit).network.groups = _ from
        groups_repeat hg r.min d₁] at hpass
      exact (hrequired.loop (joins_turn hready hpass) ho).congr fun Z _ => hskip _ _ Z
  | some most =>
      have hrest := joins_upTo hg hp (most - r.min) hready
      rw [groups_repeat hg] at hrest
      exact (hrequired.joins hrest ho).congr fun Z _ => hskip _ _ Z

end Copies

/-! ### Expressions -/

theorem groups_layAction (entry exit : Nat) (a : Action) (N : Network) :
    (layAction entry exit a N).groups =
      ((Plan.of (.act a.key a.target)).repeated a.repetition N.groups).2 := by
  have hg : ∀ d : Draft, (d.advance a (N.tag exit)).network.groups =
      (Plan.of (.act a.key a.target) d.network.groups).2 := fun _ => rfl
  have hrequired := groups_repeat hg a.repetition.min ⟨entry, N⟩
  unfold layAction Plan.repeated
  cases a.repetition.max with
  | none =>
      refine Eq.trans ?_ hrequired
      dsimp only [connect, Draft.leave, link]
      split <;> rfl
  | some most =>
      exact (groups_upTo hg exit _ _).trans (congrArg (fun n => (Plan.upTo _ _ n).2) hrequired)

theorem openGroup_eq (N : Network) (name : Option String) :
    (N.openGroup name).1 = (Plan.tag N.groups name).1 ∧
      (N.openGroup name).2.groups = (Plan.tag N.groups name).2 := by
  cases name <;> exact ⟨rfl, rfl⟩

mutual

/-- **Groups are numbered as planned.** -/
theorem groups_lay : ∀ (e : Expression) (entry exit : Nat) (N : Network),
    (lay entry exit e N).groups = (e.plan N.groups).2
  | .action a, entry, exit, N => groups_layAction entry exit a N
  | .group name body r, entry, exit, N => by
      have hpasses := groups_layPasses (groups_layBody (N.openGroup name).1 body) exit r
        (Draft.branch (N.openGroup name).1 ⟨entry, (N.openGroup name).2⟩)
      rw [show (Draft.branch (N.openGroup name).1 ⟨entry, (N.openGroup name).2⟩).network.groups =
        _ from (openGroup_eq N name).2] at hpasses
      exact hpasses
  | .options alternatives, entry, exit, N => groups_layOptions alternatives entry exit N

theorem groups_layBody (tag : Tag) : ∀ (es : List Expression) (d : Draft),
    (layBody tag es d).network.groups = (Expression.rowPlan es d.network.groups).2
  | [], _ => rfl
  | e :: es, d =>
      (groups_layBody tag es _).trans (congrArg (fun n => (Expression.rowPlan es n).2)
        (groups_lay e d.node d.network.size (d.network.add tag)))

theorem groups_layOptions : ∀ (es : List Expression) (entry exit : Nat) (N : Network),
    (layOptions entry exit es N).groups = (Expression.choicePlan es N.groups).2
  | [], _, _, _ => rfl
  | e :: es, entry, exit, N =>
      (groups_layOptions es entry exit _).trans
        (congrArg (fun n => (Expression.choicePlan es n).2) (groups_lay e entry exit N))

end

theorem joins_layAction (a : Action) (hN : N.Wired) (hi : entry < N.size) (ho : exit < N.size) :
    Joins ρ F ((Expression.action a).plan N.groups).1 (N.tag exit) entry exit N
      (layAction entry exit a N) := by
  have hd : Draft.Ready exit ⟨entry, N⟩ := ⟨hN, hi, ho⟩
  let p : Plan := .of (.act a.key a.target)
  have hg : ∀ d : Draft,
      (d.advance a (N.tag exit)).network.groups = (p d.network.groups).2 := fun _ => rfl
  have hp : ∀ d : Draft, d.Ready exit →
      Passes ρ F (p d.network.groups).1 (N.tag exit) d (d.advance a (N.tag exit)) :=
    fun d hd => .inl (moves_advance a _ hd)
  have hrequired := passes_repeat hg hp hd a.repetition.min
  rw [Expression.plan]
  unfold layAction Plan.repeated
  cases a.repetition.max with
  | none =>
      -- the loop needs a node of its own, also when no copy is required
      let required := Nat.repeat (Draft.advance a (N.tag exit)) a.repetition.min ⟨entry, N⟩
      let turning := if a.repetition.min = 0 then required.branch (N.tag exit) else required
      have hturning : Moves ρ F (p.copies a.repetition.min N.groups).1 (N.tag exit) ⟨entry, N⟩
          turning ∧ turning.network.tag turning.node = N.tag exit := by
        unfold turning required
        cases a.repetition.min with
        | zero => exact ⟨moves_branch _ hd, tag_branch _ hi⟩
        | succ k =>
            have hk := passes_repeat hg hp hd k
            have hready := hk.ready hd
            exact ⟨hk.moves (moves_advance a _ hready), tag_advance a _ hready.inside⟩
      have hready := hturning.1.ready ho
      have hloop : Joins ρ F _ _ _ _ _ _ := joins_connect a.key a.target hready.leave.wired
        hready.leave.inside hready.leave.inside
      rw [show (turning.leave exit).network.tag (turning.leave exit).node = N.tag exit from
        (tag_link hready.inside exit _).trans hturning.2] at hloop
      exact hturning.1.loop hloop ho
  | some most =>
      have hrest := joins_upTo hg hp (most - a.repetition.min) (hrequired.ready hd)
      rw [groups_repeat hg] at hrest
      exact hrequired.joins hrest ho

/-- Opening a group adds nothing that reads. -/
theorem Joins.of_openGroup {name : Option String}
    (h : Joins ρ F l tag entry exit (N.openGroup name).2 N₁) :
    Joins ρ F l tag entry exit N N₁ where
  grows := (grows_openGroup N name).trans h.grows
  wired := h.wired
  complete := h.complete
  sound Y hY hl := by
    obtain ⟨Y', hY', hs⟩ := h.sound Y (valid_openGroup.mpr hY) hl
    exact ⟨Y', hY', fun n hn => hs n ((size_openGroup N name).symm ▸ hn)⟩

theorem Wired.openGroup (h : N.Wired) (name : Option String) : (N.openGroup name).2.Wired :=
  fun a l b hb => (size_openGroup N name).symm ▸ h a l b (arc_openGroup.mp hb)

mutual

/-- **An unrolled expression reads what its layout says.** -/
theorem joins_lay : ∀ (e : Expression) {entry exit : Nat} {N : Network}, N.Wired →
    entry < N.size → exit < N.size →
      Joins ρ F (e.plan N.groups).1 (N.tag exit) entry exit N (lay entry exit e N)
  | .action a, _, _, _, hN, hi, ho => joins_layAction a hN hi ho
  | .group name body r, entry, exit, N, hN, hi, ho => by
      have hs := size_openGroup N name
      have hd : Draft.Ready exit ⟨entry, (N.openGroup name).2⟩ :=
        ⟨hN.openGroup name, hs.symm ▸ hi, hs.symm ▸ ho⟩
      have hgroup : Joins ρ F _ _ _ _ _ _ := joins_layPasses
        (groups_layBody (N.openGroup name).1 body)
        (fun d hd => passes_layBody (N.openGroup name).1 body hd)
        (moves_branch (N.openGroup name).1 hd) hd.exit_lt r
      rw [show (Draft.branch (N.openGroup name).1 ⟨entry, (N.openGroup name).2⟩).network.groups =
        _ from (openGroup_eq N name).2] at hgroup
      rw [Expression.plan, Plan.copy, ← (openGroup_eq N name).1]
      exact .of_openGroup (hgroup.congr fun _ _ => rfl)
  | .options alternatives, _, _, _, hN, hi, ho => joins_layOptions alternatives hN hi ho

theorem passes_layBody (tag : Tag) : ∀ (es : List Expression) {exit : Nat} {d : Draft},
    d.Ready exit →
      Passes ρ F (Expression.rowPlan es d.network.groups).1 tag d (layBody tag es d)
  | [], _, _, _ => .inr ⟨fun _ => Layout.ahead_skip, rfl⟩
  | e :: es, exit, d, hd => by
      have hs := size_lt_add d.network tag
      have hlay := joins_lay e (hd.wired.add tag) (hd.inside.trans hs) hs
      rw [tag_add, if_pos rfl] at hlay
      have hmember := hlay.moves hd.wired hd.inside
      have hrest := passes_layBody tag es (hmember.ready hd.exit_lt)
      rw [groups_lay] at hrest
      exact .inl (hmember.passes hrest)

theorem joins_layOptions : ∀ (es : List Expression) {entry exit : Nat} {N : Network}, N.Wired →
    entry < N.size → exit < N.size →
      Joins ρ F (Expression.choicePlan es N.groups).1 (N.tag exit) entry exit N
        (layOptions entry exit es N)
  | [], _, _, _, hN, _, _ => joins_never hN
  | e :: es, entry, exit, N, hN, hi, ho => by
      have hfirst := joins_lay e hN hi ho
      have hle := hfirst.grows.size_le
      have hrest := joins_layOptions es hfirst.wired (hi.trans_le hle)
        (ho.trans_le hle)
      rw [groups_lay, hfirst.grows.tag ho] at hrest
      exact hfirst.either hrest hi ho

end

end Multitouch.Network
