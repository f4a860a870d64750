import Mathlib.Data.Nat.Find
import Multitouch.Proofs.Closure.Ends

/-!
# Every debt is paid

What the books of the search amount to over a whole run.  Every node is taken up just once, by the
one step before which it is fresh and after which it is not (`takesUp_iff`), so that the search
ends whatever cycles the links make.  In between the books balance (`Balanced`): debts and waiting
lists are inverse to each other, only active nodes are owed anything, an active node owes only to
nodes below it on the path, and the nodes that a node serves when it is left have been left
themselves.

A debt stays until the node that it is owed to is left (`owed_step`).  That step pays it: whoever
waits gets what the node has, and owes what the node owes (`pays_of_leaves`).  When the search
ends nothing is owed, so every debt that was ever noted has been paid (`exists_pays`).
-/

namespace Multitouch.Closure

variable {N : Network} {final : Nat}

/-! ### Taking up and leaving -/

/-- The next step takes `n` up. -/
def TakesUp (c : Closure) (n : Nat) : Prop :=
  c.step.nodes = n :: c.nodes

/-- The next step leaves `n`: it is the top of the path, and all of its links have been
followed. -/
def Leaves (c : Closure) (n : Nat) : Prop :=
  ∃ path, c.path = (n, []) :: path

theorem fresh_visit {c : Closure} {n : Nat} (hn : (c.cell n).mark = .fresh) (s : Nat) :
    ((c.visit n).cell s).mark = .fresh ↔ (c.cell s).mark = .fresh ∧ s ≠ n := by
  rw [mark_visit (lt_of_mark (by simp [hn]))]
  by_cases hs : s = n <;> simp [hs]

/-- An active node is not fresh before it is left, nor after. -/
theorem fresh_leave {c : Closure} {n : Nat} (hn : (c.cell n).mark = .active) (s : Nat) :
    ((c.leave n).cell s).mark = .fresh ↔ (c.cell s).mark = .fresh := by
  rw [mark_leave (lt_of_mark (by simp [hn]))]
  by_cases hs : s = n <;> simp [hs, hn]

/-- A step takes up a fresh node, or leaves the path no longer than it was; no other node is fresh
before it and not after it, and none becomes fresh. -/
theorem step_takes {c : Closure} (h : Books c none) :
    (∃ n, c.step.nodes = n :: c.nodes ∧ (c.cell n).mark = .fresh ∧
      ∀ s, (c.step.cell s).mark = .fresh ↔ (c.cell s).mark = .fresh ∧ s ≠ n) ∨
    c.step.nodes.length ≤ c.nodes.length ∧
      ∀ s, (c.step.cell s).mark = .fresh ↔ (c.cell s).mark = .fresh := by
  have hs := c.step_cases
  generalize c.step = c' at hs
  cases hs with
  | skip hp => exact .inr ⟨by simp [nodes, hp], fun _ => .rfl⟩
  | @visit n m links path hp _ hm =>
      exact .inl ⟨m, by simp [nodes, Closure.visit, hp], hm,
        fresh_visit (c := { c with path := (n, links) :: path }) hm⟩
  | inherit hp => exact .inr ⟨by simp [nodes, hp], fun s => by rw [mark_inherit]; rfl⟩
  | await hp => exact .inr ⟨by simp [nodes, hp], fun s => by rw [mark_await]; rfl⟩
  | last hp =>
      exact .inr ⟨by simp [nodes, hp], fresh_leave (c := { c with path := [] }) (h.top hp)⟩
  | @back n m links path hp =>
      refine .inr ⟨by simp [nodes, hp], fun s => ?_⟩
      rw [mark_inherit]
      exact fresh_leave (c := { c with path := (m, links) :: path }) (h.top hp) s
  | idle => exact .inr ⟨Nat.le_refl _, fun _ => .rfl⟩
  | @root n roots _ _ hn =>
      exact .inl ⟨n, rfl, hn, fresh_visit (c := { c with roots }) hn⟩
  | known => exact .inr ⟨Nat.le_refl _, fun _ => .rfl⟩

/-- A node is taken up by the step before which it is fresh and after which it is not. -/
theorem takesUp_iff {c : Closure} (h : Books c none) {n : Nat} :
    c.TakesUp n ↔ (c.cell n).mark = .fresh ∧ (c.step.cell n).mark ≠ .fresh := by
  rcases step_takes h with ⟨m, hm, hf, hmark⟩ | ⟨hlen, hmark⟩
  · rw [TakesUp, hm]
    constructor
    · intro e
      obtain ⟨rfl, -⟩ := List.cons.inj e
      exact ⟨hf, fun hn => ((hmark m).mp hn).2 rfl⟩
    · rintro ⟨hn, hnot⟩
      by_contra hne
      exact hnot ((hmark n).mpr ⟨hn, fun e => hne (e ▸ rfl)⟩)
  · refine iff_of_false (fun e => ?_) fun hn => hn.2 ((hmark n).mpr hn.1)
    rw [e, List.length_cons] at hlen
    exact Nat.not_succ_le_self _ hlen

/-- A node that is not fresh does not become so. -/
theorem fresh_of_step {c : Closure} (h : Books c none) {n : Nat}
    (hn : (c.step.cell n).mark = .fresh) : (c.cell n).mark = .fresh := by
  rcases step_takes h with ⟨m, -, -, hmark⟩ | ⟨-, hmark⟩
  · exact ((hmark n).mp hn).1
  · exact (hmark n).mp hn

theorem fresh_of_le (N : Network) (initial final : Nat) {i j n : Nat} (hij : i ≤ j)
    (hn : ((after N initial final j).cell n).mark = .fresh) :
    ((after N initial final i).cell n).mark = .fresh := by
  induction hij with
  | refl => exact hn
  | step _ ih => exact ih (fresh_of_step (searches_after N initial final _).books hn)

/-- **Every node is taken up once.** -/
theorem existsUnique_takesUp (N : Network) (initial final : Nat) {n : Nat} (hn : n < N.size) :
    ∃! k, (after N initial final k).TakesUp n := by
  have hbooks := fun k => (searches_after N initial final k).books
  have hstart : ((after N initial final 0).cell n).mark = .fresh := by
    rw [show after N initial final 0 = start N initial final from rfl, cell_start, if_pos hn]
  have hend : ∃ k, ((after N initial final k).cell n).mark ≠ .fresh :=
    ⟨work N, fun hf => nomatch (run_ends N initial final n).1.symm.trans hf⟩
  -- the last step before which it is fresh
  obtain ⟨k, hk⟩ : ∃ k, Nat.find hend = k + 1 :=
    Nat.exists_eq_succ_of_ne_zero fun h0 => Nat.find_spec hend (h0 ▸ hstart)
  have hnot : ((after N initial final (k + 1)).cell n).mark ≠ .fresh := hk ▸ Nat.find_spec hend
  have hfresh : ∀ j < k + 1, ((after N initial final j).cell n).mark = .fresh := fun j hj =>
    not_not.mp (Nat.find_min hend (hk ▸ hj))
  refine ⟨k, (takesUp_iff (hbooks k)).mpr ⟨hfresh k (Nat.lt_succ_self k), hnot⟩, ?_⟩
  intro j hj
  obtain ⟨hj, hj'⟩ := (takesUp_iff (hbooks j)).mp hj
  have hle : j < k + 1 := Nat.lt_of_not_le fun h => hnot (fresh_of_le N initial final h hj)
  have hge : ¬ j + 1 < k + 1 := fun h => hj' (hfresh (j + 1) h)
  omega

/-! ### The books balance -/

/-- What the books say before every step. -/
structure Balanced (c : Closure) : Prop where
  /-- `s` waits for `p` once if it owes the table of `p`, and not at all if it does not. -/
  count_waiting : ∀ s p, (c.cell p).waiting.count s = if p ∈ (c.cell s).owed then 1 else 0
  owed_nodup : ∀ s, (c.cell s).owed.Nodup
  owed_active : ∀ s, ∀ p ∈ (c.cell s).owed, (c.cell p).mark = .active
  active_iff : ∀ s, (c.cell s).mark = .active ↔ s ∈ c.nodes
  nodes_nodup : c.nodes.Nodup
  /-- An active node stands on the path, and all that it owes stands below it. -/
  owed_below : ∀ s, (c.cell s).mark = .active →
    ∃ above below, c.nodes = above ++ s :: below ∧ ∀ p ∈ (c.cell s).owed, p ∈ below
  not_self : ∀ s, s ∉ (c.cell s).owed
  /-- Whoever is served when a node is left has been left. -/
  served_done : ∀ n, c.Leaves n → ∀ w ∈ (c.cell n).waiting, (c.cell w).mark = .done

theorem Books.balanced {c : Closure} (h : Books c none) : c.Balanced where
  count_waiting s p := by
    have hnd : (c.cell p).waiting.Nodup := h.creditors_nodup p
    have hmem : p ∈ (c.cell s).owed ↔ s ∈ (c.cell p).waiting := h.owed_iff s p
    simp only [hnd.count, hmem]
  owed_nodup := h.owed_nodup
  owed_active _ _ := h.owed_active
  active_iff := h.active_iff
  nodes_nodup := h.nodes_nodup
  owed_below s hs := by
    obtain ⟨above, below, hl⟩ := List.append_of_mem ((h.active_iff s).mp hs)
    exact ⟨above, below, hl, h.below above s below hl⟩
  not_self := h.not_self
  served_done := by
    rintro n ⟨path, hp⟩ w hw
    have hset := books_settle h hp
    have hdone := hset.due_done hw
    rwa [cell_settle (c := { c with path }) (h.top_lt hp), if_neg (hset.due_ne hw)] at hdone

/-- A search of `size` nodes looks nothing up but nodes. -/
structure Within (c : Closure) (size : Nat) : Prop where
  cells : c.cells.size = size
  path : ∀ n links, (n, links) ∈ c.path → n < size ∧ ∀ m ∈ links, m < size
  owed : ∀ s, ∀ p ∈ (c.cell s).owed, p < size
  waiting : ∀ p, ∀ s ∈ (c.cell p).waiting, s < size

theorem Searches.within {c : Closure} (h : Searches N final c)
    (hN : ∀ n, ∀ m ∈ N.links n, m < N.size) : c.Within N.size where
  cells := h.size
  path n links hn :=
    ⟨h.size ▸ lt_of_mark (by simp [(h.books.active_iff n).mpr (List.mem_map_of_mem hn)]),
      fun m hm => hN n m (h.sound.ahead n links hn m hm)⟩
  owed _ _ hp := h.size ▸ lt_of_mark (by simp [h.books.owed_active hp])
  waiting p s hs := h.size ▸ lt_of_owed ((h.books.owed_iff s p).mpr hs)

/-! ### Paying debts -/

/-- Offers are kept, and so are debts to any node but `n`. -/
structure Retains (n : Nat) (c c' : Closure) : Prop where
  offers : ∀ s o, (c.cell s).Offers o → (c'.cell s).Offers o
  owed : ∀ s, ∀ p ∈ (c.cell s).owed, p ≠ n → p ∈ (c'.cell s).owed

/-- In `c'` node `s` offers what `n` offered in `c`, and owes what it owed. -/
structure Given (c : Closure) (n : Nat) (c' : Closure) (s : Nat) : Prop where
  offers : ∀ o, (c.cell n).Offers o → (c'.cell s).Offers o
  owed : ∀ p ∈ (c.cell n).owed, p ∈ (c'.cell s).owed

/-- The next step pays what `s` owes to `p`: it leaves `p`, for which `s` waits, and gives `s` what
`p` has. -/
structure Pays (c : Closure) (p s : Nat) : Prop where
  leaves : c.Leaves p
  waits : s ∈ (c.cell p).waiting
  given : Given c p c.step s

section Pay

variable {c c' c'' : Closure} {n : Nat}

theorem Retains.refl (n : Nat) (c : Closure) : Retains n c c :=
  ⟨fun _ _ => id, fun _ _ hp _ => hp⟩

theorem Retains.trans (h : Retains n c c') (h' : Retains n c' c'') : Retains n c c'' :=
  ⟨fun s o ho => h'.offers s o (h.offers s o ho),
    fun s p hp hpn => h'.owed s p (h.owed s p hp hpn) hpn⟩

theorem Given.trans {s : Nat} (h : Given c n c' s) (h' : Retains n c' c'')
    (hn : n ∉ (c.cell n).owed) : Given c n c'' s :=
  ⟨fun o ho => h'.offers s o (h.offers o ho),
    fun p hp => h'.owed s p (h.owed p hp) fun e => hn (e ▸ hp)⟩

theorem retains_inherit (n : Nat) {s m : Nat} (hs : s < c.cells.size) :
    Retains n c (c.inherit s m) :=
  ⟨fun _ _ ho => (offers_inherit hs).mpr (.inl ho),
    fun _ _ hp _ => (mem_owed_inherit hs).mpr (.inl hp)⟩

variable {w : Nat} {due : List Nat}

theorem retains_serve (h : Books c (some (n, w :: due))) : Retains n c (c.serve n w) := by
  have hw := lt_of_owed (h.due_owes List.mem_cons_self)
  have hwn := h.due_ne List.mem_cons_self
  exact ⟨fun s o ho => (offers_serve hw hwn).mpr (.inl ho), fun s p hp hpn =>
    (mem_owed_serve hw hwn (h.owed_nodup w)).mpr (.inl ⟨hp, fun e => hpn e.2⟩)⟩

theorem given_serve (h : Books c (some (n, w :: due))) : Given c n (c.serve n w) w := by
  have hw := lt_of_owed (h.due_owes List.mem_cons_self)
  have hwn := h.due_ne List.mem_cons_self
  refine ⟨fun o ho => (offers_serve hw hwn).mpr (.inr ⟨rfl, ho⟩), fun p hp => ?_⟩
  refine (mem_owed_serve hw hwn (h.owed_nodup w)).mpr (.inr ⟨rfl, hp, ?_⟩)
  -- `w` has been left, and what `n` owes has not
  rintro rfl
  rcases h.held n p hp with hpath | ⟨_, e⟩
  · have hdone := h.due_done List.mem_cons_self
    rw [(h.active_iff p).mpr hpath] at hdone
    cases hdone
  · cases e
    exact hwn rfl

theorem retains_serveAll : ∀ {c : Closure}, Books c (some (n, due)) →
    Retains n c (c.serveAll n due) := by
  induction due with
  | nil => exact fun _ => .refl n _
  | cons w due ih => exact fun h => (retains_serve h).trans (ih (books_serve h))

/-- All who are due are served. -/
theorem given_serveAll {s : Nat} : ∀ {c : Closure}, Books c (some (n, due)) → s ∈ due →
    Given c n (c.serveAll n due) s := by
  induction due with
  | nil => exact fun _ hs => nomatch hs
  | cons w due ih =>
      intro c h hs
      have hn := h.not_self n
      rcases List.mem_cons.mp hs with rfl | hs
      · exact (given_serve h).trans (retains_serveAll (books_serve h)) hn
      · -- what is given is what `n` has now, and `n` loses nothing while others are served
        have hr := retains_serve h
        have hg := ih (books_serve h) hs
        exact ⟨fun o ho => hg.offers o (hr.offers n o ho),
          fun p hp => hg.owed p (hr.owed n p hp fun e => hn (e ▸ hp))⟩

variable {links : List Nat} {path : List (Nat × List Nat)}

theorem retains_leave (h : Books c none) (hp : c.path = (n, links) :: path) :
    Retains n c ({ c with path }.leave n) := by
  have hs := retains_serveAll (books_settle h hp)
  refine ⟨fun s o ho => hs.offers s o ?_, fun s p ho => hs.owed s p ?_⟩
  · rw [offers_settle]
    exact ho
  · rw [owed_settle h hp]
    exact ho

theorem given_leave (h : Books c none) (hp : c.path = (n, links) :: path)
    (hw : w ∈ (c.cell n).waiting) : Given c n ({ c with path }.leave n) w := by
  have hs := given_serveAll (books_settle h hp) hw
  refine ⟨fun o ho => hs.offers o ?_, fun p ho => hs.owed p ?_⟩
  · rw [offers_settle]
    exact ho
  · rw [owed_settle h hp]
    exact ho

/-- After a node has been left, the step gives its table to the node it was taken up from, if
there is one, and takes nothing from anyone. -/
theorem retains_step_of_leaves (h : Books c none) (hp : c.path = (n, []) :: path) :
    Retains n ({ c with path }.leave n) c.step := by
  rcases path with _ | ⟨⟨m, links⟩, path⟩
  · rw [show c.step = { c with path := [] }.leave n by simp only [step, hp]]
    exact .refl n _
  · rw [show c.step = ({ c with path := (m, links) :: path }.leave n).inherit m n by
      simp only [step, hp]]
    exact retains_inherit n ((books_leave h hp).top_lt (path_leave _ _))

/-- Whoever waits for a node is paid when it is left. -/
theorem pays_of_leaves (h : Books c none) (hn : c.Leaves n) (hw : w ∈ (c.cell n).waiting) :
    c.Pays n w := by
  obtain ⟨path, hp⟩ := hn
  exact ⟨⟨path, hp⟩, hw,
    (given_leave h hp hw).trans (retains_step_of_leaves h hp) (h.not_self n)⟩

/-- **A debt stays until the node that it is owed to is left.** -/
theorem owed_step (h : Books c none) {s p : Nat} (hp : p ∈ (c.cell s).owed) :
    p ∈ (c.step.cell s).owed ∨ c.Leaves p := by
  by_cases hl : c.Leaves p
  · exact .inr hl
  refine .inl ?_
  have hs := c.step_cases
  have hback : ∀ {n path}, c.path = (n, []) :: path → p ∈ (c.step.cell s).owed := by
    intro n path hn
    have hpn : p ≠ n := fun e => hl ⟨path, e ▸ hn⟩
    exact ((retains_leave h hn).trans (retains_step_of_leaves h hn)).owed s p hp hpn
  generalize c.step = c' at hs hback
  cases hs with
  | skip | idle | known => exact hp
  | visit | root => rwa [owed_visit]
  | inherit hn => exact (mem_owed_inherit (by exact h.top_lt hn)).mpr (.inl hp)
  | await hn => exact (mem_owed_await (by exact h.top_lt hn)).mpr (.inl hp)
  | last hn => exact hback hn
  | back hn => exact hback hn

end Pay

/-- **No debt is lost.**  Whatever is owed at some time is paid later. -/
theorem exists_pays (N : Network) (initial final : Nat) {k s p : Nat}
    (hp : p ∈ ((after N initial final k).cell s).owed) :
    ∃ j ≥ k, (after N initial final j).Pays p s := by
  by_contra hno
  -- otherwise the debt would stay for ever
  have hstays : ∀ j ≥ k, p ∈ ((after N initial final j).cell s).owed := by
    intro j hj
    induction j, hj using Nat.le_induction with
    | base => exact hp
    | succ j hj ih =>
        have h := (searches_after N initial final j).books
        refine (owed_step h ih).resolve_right fun hl => hno ⟨j, hj, ?_⟩
        exact pays_of_leaves h hl ((h.owed_iff s p).mp ih)
  have hrests := (rests_after_iff N initial final (k + work N)).mpr (Nat.le_add_left _ _)
  have hend := ((searches_after N initial final (k + work N)).ended hrests s).2
  have hlast := hstays (k + work N) (Nat.le_add_right _ _)
  rw [hend] at hlast
  cases hlast

/-! ### A whole search -/

theorem step_of_rests {c : Closure} (h : c.Rests) : c.step = c := by
  obtain ⟨hp, hr⟩ := h
  simp only [step, hp, hr]

/-- Steps after the search has come to rest do nothing. -/
theorem after_of_le (N : Network) (initial final : Nat) {k : Nat} (hk : work N ≤ k) :
    after N initial final k = run N initial final := by
  induction k, hk using Nat.le_induction with
  | base => rfl
  | succ k hk ih =>
      rw [after_succ, step_of_rests ((rests_after_iff N initial final k).mpr hk), ih]

/-- **Debts are settled.**  If links lead to nodes, the search comes to rest after `work N` steps
and takes every node up once.  Before every step it looks up nodes only and the books balance, and
whatever is owed is paid by that step or a later one.  In the end every node has been left, and no
debt and no waiting node is left over. -/
theorem debts_settled (hN : ∀ n, ∀ m ∈ N.links n, m < N.size) (initial final : Nat) :
    ((∀ k, (after N initial final k).Rests ↔ work N ≤ k) ∧
      ∀ k ≥ work N, after N initial final k = run N initial final) ∧
    (∀ n < N.size, ∃! k, (after N initial final k).TakesUp n) ∧
    (∀ k, (after N initial final k).Within N.size ∧ (after N initial final k).Balanced) ∧
    (∀ k s p, p ∈ ((after N initial final k).cell s).owed →
      ∃ j ≥ k, (after N initial final j).Pays p s) ∧
    ∀ s, ((run N initial final).cell s).mark = .done ∧
      ((run N initial final).cell s).owed = [] ∧ ((run N initial final).cell s).waiting = [] := by
  have hsearch := searches_after N initial final
  refine ⟨⟨rests_after_iff N initial final, fun _ => after_of_le N initial final⟩,
    fun _ => existsUnique_takesUp N initial final,
    fun k => ⟨(hsearch k).within hN, (hsearch k).books.balanced⟩,
    fun _ _ _ => exists_pays N initial final, fun s => ?_⟩
  have hends := run_ends N initial final
  refine ⟨(hends s).1, (hends s).2, List.eq_nil_iff_forall_not_mem.mpr fun w hw => ?_⟩
  -- whoever waits owes something
  have howed : s ∈ ((run N initial final).cell w).owed :=
    ((hsearch (work N)).books.owed_iff w s).mpr hw
  rw [(hends w).2] at howed
  cases howed

/-- Four nodes: two cycles of links that share the nodes `2` and `3`, a link of `2` to itself, and
the node `1`, which no link leads to. -/
def crossing : Network :=
  let nodes := (((({} : Network).add .start).add .finish).add .top).add .top
  (((((nodes.link 0 2).link 2 2).link 2 3).link 3 0).link 3 2).link 1 0

theorem debts_settled_crossing :
    (∀ n, ∀ m ∈ crossing.links n, m < crossing.size) ∧
      ((after crossing 0 1 7).cell 3).owed = [0, 2] ∧
      (∃ j ≥ 7, (after crossing 0 1 j).Pays 0 3) ∧
      (∃! k, (after crossing 0 1 k).TakesUp 3) ∧
      ((run crossing 0 1).cell 3).owed = [] := by
  have hlinks : ∀ n, ∀ m ∈ crossing.links n, m < crossing.size := by
    intro n
    rcases Nat.lt_or_ge n 4 with hn | hn
    · exact (by decide : ∀ n < 4, ∀ m ∈ crossing.links n, m < crossing.size) n hn
    · rw [Network.links, Network.node_of_size_le hn]
      exact fun _ hm => absurd hm List.not_mem_nil
  have howed : ((after crossing 0 1 7).cell 3).owed = [0, 2] := by decide
  obtain ⟨-, honce, -, hpaid, hend⟩ := debts_settled hlinks 0 1
  exact ⟨hlinks, howed, hpaid 7 3 0 (by simp [howed]), honce 3 (by decide), (hend 3).2.1⟩

end Multitouch.Closure
