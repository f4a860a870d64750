import Mathlib.Data.List.Chain
import Multitouch.Proofs.Closure.Debts

/-!
# What the search has found so far

Two invariants of the search bound the offers of a cell from both sides.

`Sound`: what a cell offers, some node reached from it by links has of its own; and what it owes
is reached from it.

`Complete`: a cell offers what its node has of its own, and, for each link that has been followed,
what is reached along that link without entering the node again or a node that it owes
(`Covered`).  When a debt to `n` is paid, its node may now enter `n`.  A path that does so has a
last visit to `n` (`Avoids.last_visit`); after that it avoids what `n` owes, so what it reaches is
offered by `n` and has been taken over (`covered_serve`).  On the same ground a node that has been
left offers all that it reaches without entering a node it owes (`settled_offers`).

When nothing is owed any more the two bounds meet.
-/

namespace Multitouch

/-- What a node can give of its own: a transition, or, with `none`, that it is the final node. -/
def Network.Offers (N : Network) (final n : Nat) : Option (Key × String × Nat) → Prop
  | none => n = final
  | some (key, target, d) => d ∈ N.dests n key target

namespace Closure

variable {N : Network} {final : Nat}

/-! ### Paths that avoid nodes -/

/-- `t` is reached from `a` by links, on a path without nodes of `S`. -/
inductive Avoids (N : Network) (S : Nat → Prop) : Nat → Nat → Prop where
  | refl {a : Nat} : ¬ S a → Avoids N S a a
  | head {a b t : Nat} : ¬ S a → b ∈ N.links a → Avoids N S b t → Avoids N S a t

theorem Avoids.start {S : Nat → Prop} {a t : Nat} (h : Avoids N S a t) : ¬ S a := by
  cases h with
  | refl h => exact h
  | head h => exact h

theorem Avoids.mono {S T : Nat → Prop} (hST : ∀ x, T x → S x) {a t : Nat}
    (h : Avoids N S a t) : Avoids N T a t := by
  induction h with
  | refl h => exact .refl fun ht => h (hST _ ht)
  | head h hl _ ih => exact .head (fun ht => h (hST _ ht)) hl ih

/-- A path never enters `n`, or it enters `n` for a last time. -/
theorem Avoids.last_visit {S : Nat → Prop} {a t : Nat} (h : Avoids N S a t) (n : Nat) :
    Avoids N (fun x => S x ∨ x = n) a t ∨
      ¬ S n ∧ (t = n ∨ ∃ m ∈ N.links n, Avoids N (fun x => S x ∨ x = n) m t) := by
  induction h with
  | @refl a h =>
      by_cases ha : a = n
      · exact .inr ⟨ha ▸ h, .inl ha⟩
      · exact .inl (.refl (not_or.mpr ⟨h, ha⟩))
  | @head a b t h hl _ ih =>
      rcases ih with ih | ih
      · by_cases ha : a = n
        · exact .inr ⟨ha ▸ h, .inr ⟨b, ha ▸ hl, ih⟩⟩
        · exact .inl (.head (not_or.mpr ⟨h, ha⟩) hl ih)
      · exact .inr ih

/-- A path never enters `n`, or what it reaches is reached from `n` on such a path. -/
theorem Avoids.through {S : Nat → Prop} {a t : Nat} (h : Avoids N S a t) (n : Nat) :
    Avoids N (fun x => S x ∨ x = n) a t ∨ Avoids N S n t := by
  refine (h.last_visit n).imp id ?_
  rintro ⟨hn, rfl | ⟨m, hm, hp⟩⟩
  · exact .refl hn
  · exact .head hn hm (hp.mono fun _ => .inl)

theorem Avoids.of_reaches {a t : Nat} (h : N.Reaches a t) : Avoids N (fun _ => False) a t := by
  induction h using Relation.ReflTransGen.head_induction_on with
  | refl => exact .refl id
  | head hl _ ih => exact .head id hl ih

/-! ### Nothing is offered that is not there -/

/-- What a cell offers or owes is reached from it by links, and the path follows links. -/
structure Sound (N : Network) (final : Nat) (c : Closure) : Prop where
  links : ∀ s, (c.cell s).links = N.links s
  offers : ∀ s o, (c.cell s).Offers o → ∃ t, N.Reaches s t ∧ N.Offers final t o
  owed : ∀ s, ∀ p ∈ (c.cell s).owed, N.Reaches s p
  /-- Each node on the path has been taken up from the one below it. -/
  chain : (c.path.map (·.1)).IsChain fun n m => n ∈ N.links m
  ahead : ∀ s links, (s, links) ∈ c.path → ∀ m ∈ links, m ∈ N.links s

/-- Soundness is about links, offers, debts and the path only. -/
theorem Sound.congr {c c' : Closure} (h : Sound N final c)
    (hl : ∀ s, (c'.cell s).links = (c.cell s).links)
    (hf : ∀ s o, (c'.cell s).Offers o → (c.cell s).Offers o)
    (ho : ∀ s, ∀ p ∈ (c'.cell s).owed, p ∈ (c.cell s).owed) (hp : c'.path = c.path) :
    Sound N final c' where
  links s := (hl s).trans (h.links s)
  offers s o hs := h.offers s o (hf s o hs)
  owed s p hs := h.owed s p (ho s p hs)
  chain := by rw [hp]; exact h.chain
  ahead := by rw [hp]; exact h.ahead

theorem Sound.await {c : Closure} (h : Sound N final c) {n m : Nat} (hn : n < c.cells.size)
    (hr : N.Reaches n m) : Sound N final (c.await n m) where
  links s := (links_await c n m s).trans (h.links s)
  offers s o hs := h.offers s o (offers_await c n m s o ▸ hs)
  owed s p hs := by
    rcases (mem_owed_await hn).mp hs with hs | ⟨rfl, rfl⟩
    · exact h.owed s p hs
    · exact hr
  chain := by rw [path_await]; exact h.chain
  ahead := by rw [path_await]; exact h.ahead

theorem Sound.inherit {c : Closure} (h : Sound N final c) {n m : Nat} (hn : n < c.cells.size)
    (hr : N.Reaches n m) : Sound N final (c.inherit n m) where
  links s := (links_inherit c n m s).trans (h.links s)
  offers s o hs := by
    rcases (offers_inherit hn).mp hs with hs | ⟨rfl, hm⟩
    · exact h.offers s o hs
    · obtain ⟨t, ht, ho⟩ := h.offers m o hm
      exact ⟨t, hr.trans ht, ho⟩
  owed s p hs := by
    rcases (mem_owed_inherit hn).mp hs with hs | ⟨rfl, hm, -⟩
    · exact h.owed s p hs
    · exact hr.trans (h.owed m p hm)
  chain := by rw [path_inherit]; exact h.chain
  ahead := by rw [path_inherit]; exact h.ahead

/-- Cells with some debts struck are as sound as before. -/
theorem Sound.modify_owed {c : Closure} (h : Sound N final c) {n : Nat} {f : Cell → Cell}
    (hl : ∀ cell, (f cell).links = cell.links) (ht : ∀ cell, (f cell).table = cell.table)
    (hf : ∀ cell, (f cell).final = cell.final)
    (ho : ∀ cell, ∀ p ∈ (f cell).owed, p ∈ cell.owed) : Sound N final (c.modify n f) := by
  refine h.congr (field_modify (·.links) hl) (fun s o hs => ?_) (fun s p hs => ?_) rfl
  · rwa [field_modify (fun cell => cell.Offers o) (fun cell => ?_)] at hs
    cases o <;> simp only [Cell.Offers, ht, hf]
  · by_cases hsn : s = n
    · subst hsn
      rcases Nat.lt_or_ge s c.cells.size with hr | hr
      · rw [cell_modify_self f hr] at hs
        exact ho _ p hs
      · rw [cell_of_size_le (by simpa using hr)] at hs
        cases hs
    · rwa [cell_modify_ne f hsn] at hs

theorem Sound.serve {c : Closure} (h : Sound N final c) {n w : Nat} (hw : w < c.cells.size)
    (hr : N.Reaches w n) : Sound N final (c.serve n w) := by
  have hp : Sound N final (c.repay w n) := h.modify_owed (fun _ => rfl) (fun _ => rfl)
    (fun _ => rfl) fun _ _ => List.mem_of_mem_erase
  unfold Closure.serve
  split
  · exact hp
  · exact hp.inherit (by simpa using hw) hr

theorem Sound.serveAll {n : Nat} {due : List Nat} :
    ∀ {c : Closure}, Sound N final c → (∀ w ∈ due, w < c.cells.size ∧ N.Reaches w n) →
      Sound N final (c.serveAll n due) := by
  induction due with
  | nil => exact fun h _ => h
  | cons w due ih =>
      intro c h hd
      obtain ⟨hw, hr⟩ := hd w List.mem_cons_self
      exact ih (h.serve hw hr) fun x hx => by
        simpa using hd x (List.mem_cons_of_mem _ hx)

theorem Sound.leave {c : Closure} (h : Sound N final c) (hB : Books c none) {n : Nat}
    {links : List Nat} {path : List (Nat × List Nat)} (hp : c.path = (n, links) :: path) :
    Sound N final ({ c with path }.leave n) := by
  have hs : Sound N final { c with path } :=
    ⟨h.links, h.offers, h.owed, by have := h.chain; rw [hp] at this; exact this.tail,
      fun s links hs => h.ahead s links (hp ▸ List.mem_cons_of_mem _ hs)⟩
  rw [leave_eq]
  refine Sound.serveAll (hs.modify_owed (fun _ => rfl) (fun _ => rfl) (fun _ => rfl)
    fun _ _ => List.mem_of_mem_erase) fun w hw => ?_
  have ho : n ∈ (c.cell w).owed := (hB.owed_iff w n).mpr hw
  exact ⟨by simpa using lt_of_owed ho, h.owed w n ho⟩

theorem Sound.visit {c : Closure} (h : Sound N final c) {n : Nat}
    (hn : ∀ m ∈ (c.path.map (·.1)).head?, n ∈ N.links m) : Sound N final (c.visit n) where
  links s := (links_visit c n s).trans (h.links s)
  offers s o hs := h.offers s o (offers_visit c n s o ▸ hs)
  owed s p hs := h.owed s p (owed_visit c n s ▸ hs)
  chain := List.isChain_cons.mpr ⟨hn, h.chain⟩
  ahead s links hs m hm := by
    rcases List.mem_cons.mp hs with hs | hs
    · cases hs
      exact h.links n ▸ hm
    · exact h.ahead s links hs m hm

/-- **Every step is sound.** -/
theorem Sound.step {c : Closure} (h : Sound N final c) (hB : Books c none) :
    Sound N final c.step := by
  have hs := c.step_cases
  generalize c.step = c' at hs
  have pass : ∀ {n m links path}, c.path = (n, m :: links) :: path →
      Sound N final { c with path := (n, links) :: path } ∧ n < c.cells.size ∧
        m ∈ N.links n := by
    intro n m links path hp
    refine ⟨⟨h.links, h.offers, h.owed, ?_, fun s ls hs x hx => ?_⟩,
      hB.top_lt hp, h.ahead n (m :: links) (by simp [hp]) m List.mem_cons_self⟩
    · have := h.chain
      rwa [hp] at this
    · rcases List.mem_cons.mp hs with hs | hs
      · cases hs
        exact h.ahead n (m :: links) (by simp [hp]) x (List.mem_cons_of_mem _ hx)
      · exact h.ahead s ls (hp ▸ List.mem_cons_of_mem _ hs) x hx
  cases hs with
  | skip hp => exact (pass hp).1
  | visit hp =>
      refine (pass hp).1.visit ?_
      rintro _ ⟨⟩
      exact (pass hp).2.2
  | inherit hp => exact (pass hp).1.inherit (pass hp).2.1 (.single (pass hp).2.2)
  | await hp => exact (pass hp).1.await (pass hp).2.1 (.single (pass hp).2.2)
  | last hp => exact h.leave hB hp
  | @back n m links path hp =>
      have hc := h.chain
      rw [hp] at hc
      exact (h.leave hB hp).inherit ((books_leave hB hp).top_lt (path_leave _ _))
        (.single (List.isChain_cons_cons.mp hc).1)
  | idle => exact h
  | @root n roots hp =>
      have hr : Sound N final { c with roots } := ⟨h.links, h.offers, h.owed, h.chain, h.ahead⟩
      exact hr.visit fun m hm => by simp [hp] at hm
  | known => exact ⟨h.links, h.offers, h.owed, h.chain, h.ahead⟩

/-! ### Nothing that has been followed is missing -/

/-- What is reached along a link of `s` to `m`, without entering `s` again or a node that `s`
owes, is offered by `s`. -/
def Covered (N : Network) (final : Nat) (c : Closure) (s m : Nat) : Prop :=
  ∀ t o, Avoids N (fun x => x ∈ (c.cell s).owed ∨ x = s) m t → N.Offers final t o →
    (c.cell s).Offers o

/-- For each node of a path, from the top on, every link is still to be followed, is being followed
by the node above, or is covered. -/
def Followed (N : Network) (final : Nat) (c : Closure) :
    Option Nat → List (Nat × List Nat) → Prop
  | _, [] => True
  | child, (s, links) :: path =>
    (∀ m ∈ N.links s, m ∈ links ∨ child = some m ∨ Covered N final c s m) ∧
      Followed N final c (some s) path

/-- Cells offer what their nodes have, and what is reached along the links that have been followed.
`child` is a node that has just been left for the top of the path. -/
structure Complete (N : Network) (final : Nat) (c : Closure) (child : Option Nat) : Prop where
  size : c.cells.size = N.size
  own : ∀ s o, s < N.size → N.Offers final s o → (c.cell s).Offers o
  settled : ∀ s, (c.cell s).mark = .done → ∀ m ∈ N.links s, Covered N final c s m
  followed : Followed N final c child c.path

theorem Covered.mono {c c' : Closure} {s m : Nat} (h : Covered N final c s m)
    (ho : ∀ p ∈ (c.cell s).owed, p ∈ (c'.cell s).owed)
    (hf : ∀ o, (c.cell s).Offers o → (c'.cell s).Offers o) : Covered N final c' s m :=
  fun t o ht hto => hf o (h t o (ht.mono fun _ => Or.imp_left (ho _)) hto)

/-- A link to a node that is owed is covered. -/
theorem covered_of_owed {c : Closure} {s m : Nat} (h : m ∈ (c.cell s).owed ∨ m = s) :
    Covered N final c s m :=
  fun _ _ ht _ => absurd h ht.start

theorem Followed.imp {c c' : Closure}
    (h : ∀ s m, Covered N final c s m → Covered N final c' s m) :
    ∀ {path : List (Nat × List Nat)} {child : Option Nat},
      Followed N final c child path → Followed N final c' child path
  | [], _, _ => trivial
  | _ :: _, _, hf => ⟨fun m hm => (hf.1 m hm).imp id (Or.imp id (h _ m)), hf.2.imp h⟩

/-- What is covered is about the cells only. -/
theorem Followed.of_cells {c c' : Closure} (h : c'.cells = c.cells)
    {path : List (Nat × List Nat)} {child : Option Nat} (hf : Followed N final c child path) :
    Followed N final c' child path :=
  hf.imp fun s _ hc => hc.mono (fun p hp => by rwa [cell, h]) (fun o ho => by rwa [cell, h])

/-- A node that has been left offers what it reaches without entering a node that it owes. -/
theorem Complete.settled_offers {c : Closure} {child : Option Nat} {n t : Nat}
    {o : Option (Key × String × Nat)} (h : Complete N final c child)
    (hn : (c.cell n).mark = .done) (hr : n < N.size)
    (ht : Avoids N (· ∈ (c.cell n).owed) n t) (ho : N.Offers final t o) :
    (c.cell n).Offers o := by
  -- after the last visit to `n` the path goes along a link of `n`, and does not come back
  rcases ht.last_visit n with hp | ⟨-, rfl | ⟨m, hm, hp⟩⟩
  · exact absurd (.inr rfl) hp.start
  · exact h.own t o hr ho
  · exact h.settled n hn m hm t o hp ho

theorem covered_inherit {c : Closure} {n m s x : Nat} (hn : n < c.cells.size)
    (h : Covered N final c s x) : Covered N final (c.inherit n m) s x :=
  h.mono (fun _ hp => (mem_owed_inherit hn).mpr (.inl hp))
    (fun _ ho => (offers_inherit hn).mpr (.inl ho))

/-- A link to a node that has been left is covered once that node's table is taken over. -/
theorem Complete.covered_inherit_self {c : Closure} {child : Option Nat} {n m : Nat}
    (h : Complete N final c child) (hn : n < c.cells.size) (hm : (c.cell m).mark = .done)
    (hr : m < N.size) : Covered N final (c.inherit n m) n m := by
  intro t o ht ho
  refine (offers_inherit hn).mpr (.inr ⟨rfl, h.settled_offers hm hr (ht.mono fun x hx => ?_) ho⟩)
  by_cases hxn : x = n
  · exact .inr hxn
  · exact .inl ((mem_owed_inherit hn).mpr (.inr ⟨rfl, hx, hxn⟩))

/-- What covers a link is about one cell's debts and offers. -/
theorem Complete.congr {c c' : Closure} {child child' : Option Nat}
    (h : Complete N final c child) (hs : c'.cells.size = c.cells.size)
    (hf : ∀ s o, (c.cell s).Offers o → (c'.cell s).Offers o)
    (hc : ∀ s m, Covered N final c s m → Covered N final c' s m)
    (hm : ∀ s, (c'.cell s).mark = .done → (c.cell s).mark = .done)
    (hp : Followed N final c' child' c'.path) : Complete N final c' child' where
  size := hs.trans h.size
  own s o hs ho := hf s o (h.own s o hs ho)
  settled s hd m hl := hc s m (h.settled s (hm s hd) m hl)
  followed := hp

/-- Taking over a table, whatever it leaves to be followed. -/
theorem Complete.inherit {c : Closure} {child child' : Option Nat} {n m : Nat}
    (h : Complete N final c child) (hn : n < c.cells.size)
    (hp : Followed N final (c.inherit n m) child' c.path) :
    Complete N final (c.inherit n m) child' :=
  h.congr (size_inherit c n m) (fun _ _ ho => (offers_inherit hn).mpr (.inl ho))
    (fun _ _ => covered_inherit hn) (fun s hd => by rwa [mark_inherit] at hd)
    (by rwa [path_inherit])

/-! ### Service -/

theorem offers_serve {c : Closure} {n w s : Nat} {o : Option (Key × String × Nat)}
    (hw : w < c.cells.size) (hwn : w ≠ n) :
    ((c.serve n w).cell s).Offers o ↔ (c.cell s).Offers o ∨ s = w ∧ (c.cell n).Offers o := by
  rw [serve_of_ne hwn, offers_inherit (by simpa using hw), offers_repay, offers_repay]

/-- After the service a node owes what it owed before without `n`, and what `n` owes. -/
theorem mem_owed_serve {c : Closure} {n w s p : Nat} (hw : w < c.cells.size) (hwn : w ≠ n)
    (hd : (c.cell w).owed.Nodup) :
    p ∈ ((c.serve n w).cell s).owed ↔
      (p ∈ (c.cell s).owed ∧ ¬(s = w ∧ p = n)) ∨ s = w ∧ p ∈ (c.cell n).owed ∧ p ≠ w := by
  have hn : ∀ q, ¬(n = w ∧ q = n) := fun _ e => hwn e.1.symm
  rw [serve_of_ne hwn, mem_owed_inherit (by simpa using hw), mem_owed_repay hw hd,
    mem_owed_repay hw hd, and_iff_left (hn p)]

/-- What `s` owes less of when it is served by `n`, `n` makes up for. -/
theorem Complete.covered_serve {c : Closure} {child : Option Nat} {n w s m : Nat}
    (h : Complete N final c child) (hn : (c.cell n).mark = .done) (hr : n < N.size)
    (hw : w < c.cells.size) (hwn : w ≠ n) (hd : (c.cell w).owed.Nodup)
    (hc : Covered N final c s m) : Covered N final (c.serve n w) s m := by
  by_cases hs : s = w
  · subst hs
    intro t o ht ho
    rw [offers_serve hw hwn]
    have howed := fun x => mem_owed_serve (p := x) (s := s) hw hwn hd
    rcases ht.through n with hp | hp
    · -- without `n` on the way nothing more is avoided than before
      refine .inl (hc t o (hp.mono fun x hx => ?_) ho)
      by_cases hxs : x = s
      · exact .inl (.inr hxs)
      by_cases hxn : x = n
      · exact .inr hxn
      · exact .inl (.inl ((howed x).mpr (.inl ⟨hx.resolve_right hxs, fun e => hxn e.2⟩)))
    · -- from `n` on, what `n` owes is avoided, as `s` owes it now
      refine .inr ⟨rfl, h.settled_offers hn hr (hp.mono fun x hx => ?_) ho⟩
      by_cases hxs : x = s
      · exact .inr hxs
      · exact .inl ((howed x).mpr (.inr ⟨rfl, hx, hxs⟩))
  · refine hc.mono (fun p hp => ?_) fun o ho => (offers_serve hw hwn).mpr (.inl ho)
    exact (mem_owed_serve hw hwn hd).mpr (.inl ⟨hp, fun e => hs e.1⟩)

theorem Complete.serveAll {n : Nat} {due : List Nat} {child : Option Nat} (hr : n < N.size) :
    ∀ {c : Closure}, Complete N final c child → Books c (some (n, due)) →
      Complete N final (c.serveAll n due) child := by
  induction due with
  | nil => exact fun h _ => h
  | cons w due ih =>
      intro c h hB
      have how := hB.due_owes List.mem_cons_self
      have hw := lt_of_owed how
      have hwn := hB.due_ne List.mem_cons_self
      have hmark : ∀ x, ((c.serve n w).cell x).mark = (c.cell x).mark :=
        field_serve (·.mark) (fun _ _ => rfl) (fun _ _ => rfl) (fun _ _ _ => rfl) c n w
      have hc : ∀ s m, Covered N final c s m → Covered N final (c.serve n w) s m :=
        fun _ _ => h.covered_serve (hB.left n _ rfl).1 hr hw hwn (hB.owed_nodup w)
      refine ih (h.congr (size_serve c n w) (fun _ _ ho => (offers_serve hw hwn).mpr (.inl ho)) hc
        (fun s hs => (hmark s).symm.trans hs) ?_) (books_serve hB)
      rw [path_serve]
      exact h.followed.imp hc

/-! ### A step -/

/-- The top of the path is left when all of its links have been followed. -/
theorem Complete.leave {c : Closure} (h : Complete N final c none) (hB : Books c none) {n : Nat}
    {path : List (Nat × List Nat)} (hp : c.path = (n, []) :: path) :
    Complete N final ({ c with path }.leave n) (some n) := by
  have hr := hB.top_lt hp
  have hf := h.followed
  rw [hp] at hf
  have hcell := cell_settle (c := { c with path }) hr
  have hoff : ∀ s o, (c.cell s).Offers o → (({ c with path }.settle n).cell s).Offers o :=
    fun s o ho => (offers_settle { c with path } n s o).mpr ho
  have hcov : ∀ s m, Covered N final c s m → Covered N final ({ c with path }.settle n) s m :=
    fun s m hc => hc.mono (fun p ho => (owed_settle hB hp s).symm ▸ ho) (hoff s)
  rw [leave_eq]
  refine Complete.serveAll (h.size ▸ hr) ⟨(size_settle _ _).trans h.size,
    fun s o hs ho => hoff s o (h.own s o hs ho), fun s hs m hm => hcov s m ?_, hf.2.imp hcov⟩
    (books_settle hB hp)
  rw [hcell] at hs
  split at hs
  · next hsn =>
      subst hsn
      exact ((hf.1 m hm).resolve_left List.not_mem_nil).resolve_left nofun
  · exact h.settled s hs m hm

/-- A node is taken up from the top of the path, or as a root. -/
theorem Complete.visit {c : Closure} {n : Nat} (h : Complete N final c (some n))
    (hl : (c.cell n).links = N.links n) (hn : n < c.cells.size) :
    Complete N final (c.visit n) none := by
  have hoff : ∀ s o, (c.cell s).Offers o → ((c.visit n).cell s).Offers o := fun s o ho =>
    offers_visit c n s o ▸ ho
  have hcov : ∀ s m, Covered N final c s m → Covered N final (c.visit n) s m :=
    fun s m hc => hc.mono (fun p hp => owed_visit c n s ▸ hp) (hoff s)
  refine h.congr (size_modify c n _) hoff hcov (fun s hs => ?_)
    ⟨fun m hm => .inl (hl ▸ hm), h.followed.imp hcov⟩
  rw [mark_visit hn] at hs
  split at hs
  · cases hs
  · exact hs

/-- The top of the path takes over the table of a node that has been left. -/
theorem Complete.inherit_child {c : Closure} {n m : Nat} {links : List Nat}
    {path : List (Nat × List Nat)} (h : Complete N final c (some m))
    (hp : c.path = (n, links) :: path) (hn : n < c.cells.size)
    (hm : (c.cell m).mark = .done) (hr : m < N.size) :
    Complete N final (c.inherit n m) none := by
  have hf := h.followed
  rw [hp] at hf
  refine h.inherit hn ?_
  rw [hp]
  refine ⟨fun x hx => ?_, hf.2.imp fun _ _ => covered_inherit hn⟩
  rcases hf.1 x hx with hx | hx | hx
  · exact .inl hx
  · cases hx
    exact .inr (.inr (h.covered_inherit_self hn hm hr))
  · exact .inr (.inr (covered_inherit hn hx))

/-- The top of the path waits for a node that has not been left. -/
theorem Complete.await_child {c : Closure} {n m : Nat} {links : List Nat}
    {path : List (Nat × List Nat)} (h : Complete N final c (some m))
    (hp : c.path = (n, links) :: path) (hn : n < c.cells.size) :
    Complete N final (c.await n m) none := by
  have hf := h.followed
  rw [hp] at hf
  have hoff : ∀ s o, (c.cell s).Offers o → ((c.await n m).cell s).Offers o := fun s o ho =>
    offers_await c n m s o ▸ ho
  have hcov : ∀ s x, Covered N final c s x → Covered N final (c.await n m) s x :=
    fun s x hc => hc.mono (fun p hp => (mem_owed_await hn).mpr (.inl hp)) (hoff s)
  refine h.congr (size_await c n m) hoff hcov (fun s hs => ?_) ?_
  · rwa [mark_await] at hs
  · rw [path_await, hp]
    refine ⟨fun x hx => ?_, hf.2.imp hcov⟩
    rcases hf.1 x hx with hx | hx | hx
    · exact .inl hx
    · cases hx
      exact .inr (.inr (covered_of_owed (.inl ((mem_owed_await hn).mpr (.inr ⟨rfl, rfl⟩)))))
    · exact .inr (.inr (hcov n x hx))

/-- **Every step is complete.** -/
theorem Complete.step {c : Closure} (h : Complete N final c none) (hS : Sound N final c)
    (hB : Books c none) (hN : N.Wired) : Complete N final c.step none := by
  have hs := c.step_cases
  generalize c.step = c' at hs
  -- the link that is taken from the list is covered, or is followed by the node above
  have pass : ∀ {n m links path}, c.path = (n, m :: links) :: path →
      ∀ {child}, (child = some m ∨ Covered N final c n m) →
        Complete N final { c with path := (n, links) :: path } child := by
    intro n m links path hp child hc
    have hf := h.followed
    rw [hp] at hf
    refine ⟨h.size, h.own, h.settled, fun x hx => ?_, hf.2.of_cells (by rfl)⟩
    rcases (hf.1 x hx).imp_left List.mem_cons.mp with (rfl | hx) | hx | hx
    · exact .inr hc
    · exact .inl hx
    · cases hx
    · exact .inr (.inr hx)
  have target : ∀ {n m links path}, c.path = (n, m :: links) :: path → m < N.size := by
    intro n m links path hp
    exact hN n none m (hS.ahead n (m :: links) (by simp [hp]) m List.mem_cons_self)
  cases hs with
  | skip hp => exact pass hp (.inr (covered_of_owed (.inr rfl)))
  | visit hp _ hm =>
      exact (pass hp (.inl rfl)).visit (hS.links _) (lt_of_mark (c := c) (by simp [hm]))
  | inherit hp _ hm => exact (pass hp (.inl rfl)).inherit_child rfl (hB.top_lt hp) hm (target hp)
  | await hp => exact (pass hp (.inl rfl)).await_child rfl (hB.top_lt hp)
  | last hp =>
      have hl := h.leave hB hp
      exact ⟨hl.size, hl.own, hl.settled, by rw [path_leave]; trivial⟩
  | @back n m links path hp =>
      have hn := hB.top_lt hp
      refine (h.leave hB hp).inherit_child (path_leave _ _)
        ((books_leave hB hp).top_lt (path_leave _ _)) ?_ (h.size ▸ hn)
      exact (mark_leave (c := { c with path := (m, links) :: path }) hn n).trans (if_pos rfl)
  | idle => exact h
  | root hp _ hm =>
      refine Complete.visit ⟨h.size, h.own, h.settled, ?_⟩ (hS.links _)
        (lt_of_mark (c := c) (by simp [hm]))
      rw [show c.path = [] from hp]
      trivial
  | known hp => exact ⟨h.size, h.own, h.settled, h.followed.of_cells (by rfl)⟩

end Closure

end Multitouch
