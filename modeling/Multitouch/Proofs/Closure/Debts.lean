import Mathlib.Data.List.Nodup
import Multitouch.Proofs.Closure.Cells

/-!
# The books of the search

A debt is noted on both sides: `p` is among what `s` owes exactly if `s` is among the nodes that
wait for `p`.  `Books` says that this is so, each time once, and who can owe what: only a node on
the path is ever owed anything, and a node on the path owes only to nodes below it.  So when the
search leaves the top of the path, every node that waits for it has been left before.

While a node is left, its waiting list has been taken and is served one node at a time; the
second argument of `Books` is that node with the nodes `due` to be served.  One step of the
service strikes a debt and takes over the debts of the node that is left (`books_serve`), none of
which is to itself, so that nobody owes it anything when all are served (`books_leave`).
-/

namespace Multitouch.Closure

/-- The nodes on the path, latest first. -/
def nodes (c : Closure) : List Nat :=
  c.path.map (·.1)

/-- The nodes that owe nothing until `p` is left: those that wait for it, or, if it is being left,
those still due. -/
def creditors (c : Closure) (leaving : Option (Nat × List Nat)) (p : Nat) : List Nat :=
  match leaving with
  | some (n, due) => if p = n then due else (c.cell p).waiting
  | none => (c.cell p).waiting

/-- The debts agree with the waiting lists and with the path. -/
structure Books (c : Closure) (leaving : Option (Nat × List Nat)) : Prop where
  /-- A debt is noted on both sides. -/
  owed_iff : ∀ s p, p ∈ (c.cell s).owed ↔ s ∈ c.creditors leaving p
  owed_nodup : ∀ s, (c.cell s).owed.Nodup
  creditors_nodup : ∀ p, (c.creditors leaving p).Nodup
  /-- The active nodes are those on the path. -/
  active_iff : ∀ s, (c.cell s).mark = .active ↔ s ∈ c.nodes
  nodes_nodup : c.nodes.Nodup
  /-- A node on the path owes only to nodes below it. -/
  below : ∀ l₁ s l₂, c.nodes = l₁ ++ s :: l₂ → ∀ p ∈ (c.cell s).owed, p ∈ l₂
  fresh : ∀ s, (c.cell s).mark = .fresh → (c.cell s).owed = []
  /-- Only nodes on the path, and the node that is being left, are owed anything. -/
  held : ∀ s, ∀ p ∈ (c.cell s).owed, p ∈ c.nodes ∨ ∃ due, leaving = some (p, due)
  left : ∀ n due, leaving = some (n, due) →
    (c.cell n).mark = .done ∧ n ∉ (c.cell n).owed ∧ (c.cell n).waiting = []

namespace Books

variable {c c' : Closure} {leaving : Option (Nat × List Nat)}

/-- The books are about debts, waiting lists, marks and the path only. -/
theorem congr (h : Books c leaving) (ho : ∀ s, (c'.cell s).owed = (c.cell s).owed)
    (hw : ∀ s, (c'.cell s).waiting = (c.cell s).waiting)
    (hm : ∀ s, (c'.cell s).mark = (c.cell s).mark) (hp : c'.nodes = c.nodes) :
    Books c' leaving := by
  have hc : ∀ p, c'.creditors leaving p = c.creditors leaving p := fun p => by
    simp only [creditors, hw]
  constructor
  · intro s p; rw [ho, hc]; exact h.owed_iff s p
  · intro s; rw [ho]; exact h.owed_nodup s
  · intro p; rw [hc]; exact h.creditors_nodup p
  · intro s; rw [hm, hp]; exact h.active_iff s
  · rw [hp]; exact h.nodes_nodup
  · intro l₁ s l₂; rw [hp, ho]; exact h.below l₁ s l₂
  · intro s; rw [hm, ho]; exact h.fresh s
  · intro s; rw [hp, ho]; exact h.held s
  · intro n due; rw [hm, ho, hw]; exact h.left n due

/-- A node that is being left is not on the path. -/
theorem left_not_mem {n : Nat} {due : List Nat} (h : Books c (some (n, due))) : n ∉ c.nodes :=
  fun hn => by
    have hd := (h.left n due rfl).1
    rw [(h.active_iff n).mpr hn] at hd
    cases hd

/-- No node owes its own table. -/
theorem not_self (h : Books c leaving) (s : Nat) : s ∉ (c.cell s).owed := by
  intro hs
  rcases h.held s s hs with hn | ⟨due, rfl⟩
  · -- on the path it would be below itself, and the path has no node twice
    obtain ⟨l₁, l₂, hl⟩ := List.append_of_mem hn
    have hb := h.below l₁ s l₂ hl s hs
    have hd := h.nodes_nodup
    rw [hl, List.nodup_append] at hd
    exact (List.nodup_cons.mp hd.2.1).1 hb
  · exact (h.left s due rfl).2.1 hs

/-- What is owed, to any node but the one that is being left, is owed to an active node. -/
theorem owed_active (h : Books c none) {s p : Nat} (hp : p ∈ (c.cell s).owed) :
    (c.cell p).mark = .active := by
  rcases h.held s p hp with hn | ⟨_, hl⟩
  · exact (h.active_iff p).mpr hn
  · cases hl

theorem due_owes {n w : Nat} {due : List Nat} (h : Books c (some (n, due))) (hw : w ∈ due) :
    n ∈ (c.cell w).owed :=
  (h.owed_iff w n).mpr (by simpa [creditors] using hw)

theorem due_ne {n w : Nat} {due : List Nat} (h : Books c (some (n, due))) (hw : w ∈ due) :
    w ≠ n :=
  fun e => (h.left n due rfl).2.1 (e ▸ h.due_owes hw)

/-- Every node that is due has itself been left. -/
theorem due_done {n w : Nat} {due : List Nat} (h : Books c (some (n, due))) (hw : w ∈ due) :
    (c.cell w).mark = .done := by
  have ho := h.due_owes hw
  cases hm : (c.cell w).mark with
  | done => rfl
  | fresh =>
      rw [h.fresh w hm] at ho
      cases ho
  | active =>
      -- what an active node owes is owed to a node on the path, and `n` is not on it any more
      obtain ⟨l₁, l₂, hl⟩ := List.append_of_mem ((h.active_iff w).mp hm)
      refine absurd ?_ h.left_not_mem
      rw [hl]
      exact List.mem_append_right _ (List.mem_cons_of_mem _ (h.below l₁ w l₂ hl n ho))

/-- The top of the path is active. -/
theorem top (h : Books c leaving) {n : Nat} {links : List Nat} {path : List (Nat × List Nat)}
    (hp : c.path = (n, links) :: path) : (c.cell n).mark = .active :=
  (h.active_iff n).mpr (by simp [nodes, hp])

theorem top_lt (h : Books c leaving) {n : Nat} {links : List Nat} {path : List (Nat × List Nat)}
    (hp : c.path = (n, links) :: path) : n < c.cells.size :=
  lt_of_mark (by simp [h.top hp])

end Books

/-! ### Taking on debts -/

/-- A node that is put on the waiting list of `p` is one more creditor of `p`, and of no other
node. -/
theorem creditors_await {c : Closure} {leaving : Option (Nat × List Nat)} {s p : Nat}
    (hp : p < c.cells.size) (hm : p ∉ (c.cell s).owed)
    (hl : ∀ n due, leaving = some (n, due) → p ≠ n) (q : Nat) :
    (c.await s p).creditors leaving q =
      if q = p then c.creditors leaving p ++ [s] else c.creditors leaving q := by
  have hwait := waiting_await hp hm
  cases leaving with
  | none => exact hwait q
  | some l =>
      obtain ⟨n, due⟩ := l
      have hpn := hl n due rfl
      simp only [creditors, hwait, if_neg hpn]
      by_cases hq : q = p
      · rw [if_neg (hq ▸ hpn), if_pos hq, if_pos hq]
      · rw [if_neg hq, if_neg hq]

/-- A debt to a node on the path, below the debtor if that is on the path too. -/
theorem books_await {c : Closure} {leaving : Option (Nat × List Nat)} {s p : Nat}
    (h : Books c leaving) (hs : (c.cell s).mark ≠ .fresh) (hr : s < c.cells.size)
    (hp : p ∈ c.nodes) (hb : ∀ l₁ l₂, c.nodes = l₁ ++ s :: l₂ → p ∈ l₂) :
    Books (c.await s p) leaving := by
  by_cases hm : p ∈ (c.cell s).owed
  · rwa [await_of_mem hm]
  have ha := (h.active_iff p).mpr hp
  have hpr : p < c.cells.size := lt_of_mark (by simp [ha])
  have howed := owed_await hr hm
  have hnodes : (c.await s p).nodes = c.nodes := by rw [nodes, nodes, path_await]
  -- `p` is active, so it is not the node that is being left
  have hnl : ∀ n due, leaving = some (n, due) → p ≠ n := fun n due hl e => by
    subst e
    rw [(h.left p due hl).1] at ha
    cases ha
  have hcred := creditors_await hpr hm hnl
  constructor
  case owed_iff =>
    intro x q
    rw [mem_owed_await hr, hcred]
    by_cases hq : q = p <;> simp [hq, h.owed_iff]
  case owed_nodup =>
    intro x
    rw [howed]
    split
    · exact List.nodup_append.mpr ⟨h.owed_nodup s, List.nodup_singleton _,
        fun a ha b hb e => hm (List.mem_singleton.mp hb ▸ e ▸ ha)⟩
    · exact h.owed_nodup x
  case creditors_nodup =>
    intro q
    rw [hcred]
    split
    · refine List.nodup_append.mpr ⟨h.creditors_nodup p, List.nodup_singleton _, ?_⟩
      exact fun a ha b hb e => hm ((h.owed_iff s p).mpr (List.mem_singleton.mp hb ▸ e ▸ ha))
    · exact h.creditors_nodup q
  case active_iff => intro x; rw [mark_await, hnodes]; exact h.active_iff x
  case nodes_nodup => rw [hnodes]; exact h.nodes_nodup
  case below =>
    intro l₁ x l₂ hl q hq
    rw [hnodes] at hl
    rcases (mem_owed_await hr).mp hq with hq | ⟨rfl, rfl⟩
    · exact h.below l₁ x l₂ hl q hq
    · exact hb l₁ l₂ hl
  case fresh =>
    intro x hx
    rw [mark_await] at hx
    have hxs : x ≠ s := fun e => hs (e ▸ hx)
    rw [howed, if_neg hxs]
    exact h.fresh x hx
  case held =>
    intro x q hq
    rw [hnodes]
    rcases (mem_owed_await hr).mp hq with hq | ⟨-, rfl⟩
    · exact h.held x q hq
    · exact .inl hp
  case left =>
    intro n due hl
    obtain ⟨h₁, h₂, h₃⟩ := h.left n due hl
    have hpn := (hnl n due hl).symm
    refine ⟨(mark_await c s p n).trans h₁, fun hn => ?_, ?_⟩
    · rcases (mem_owed_await hr).mp hn with hn | ⟨-, hn⟩
      · exact h₂ hn
      · exact hpn hn
    · rw [waiting_await hpr hm, if_neg hpn, h₃]

theorem books_awaitAll {leaving : Option (Nat × List Nat)} {s : Nat} {debts : List Nat} :
    ∀ {c : Closure}, Books c leaving → (c.cell s).mark ≠ .fresh → s < c.cells.size →
      (∀ p ∈ debts, p ∈ c.nodes ∧ ∀ l₁ l₂, c.nodes = l₁ ++ s :: l₂ → p ∈ l₂) →
      Books (c.awaitAll s debts) leaving := by
  induction debts with
  | nil => exact fun h _ _ _ => h
  | cons p debts ih =>
      intro c h hs hr hd
      have hnodes : (c.await s p).nodes = c.nodes := by rw [nodes, nodes, path_await]
      refine ih (c := c.await s p) (books_await h hs hr (hd p List.mem_cons_self).1
        (hd p List.mem_cons_self).2) ?_ (by simpa using hr) fun q hq => ?_
      · rwa [mark_await]
      · rw [hnodes]
        exact hd q (List.mem_cons_of_mem _ hq)

/-- A node takes over the table of another and owes what that owes. -/
theorem books_inherit {c : Closure} {leaving : Option (Nat × List Nat)} {s m : Nat}
    (h : Books c leaving) (hs : (c.cell s).mark ≠ .fresh) (hr : s < c.cells.size)
    (hd : ∀ p ∈ (c.cell m).owed, p ≠ s →
      p ∈ c.nodes ∧ ∀ l₁ l₂, c.nodes = l₁ ++ s :: l₂ → p ∈ l₂) :
    Books (c.inherit s m) leaving := by
  rw [inherit_eq]
  have hg : Books (c.grant s m) leaving := h.congr
    (fun x => field_modify (·.owed) (fun _ => by rfl) x)
    (fun x => field_modify (·.waiting) (fun _ => by rfl) x)
    (fun x => field_modify (·.mark) (fun _ => by rfl) x) rfl
  refine books_awaitAll hg ?_ (by simpa [grant] using hr) fun p hp => ?_
  · rwa [grant, field_modify (·.mark) fun _ => by rfl]
  · rw [List.mem_filter, bne_iff_ne] at hp
    exact hd p hp.1 hp.2

/-! ### Leaving a node -/

/-- The debt of the first node that is due is struck. -/
theorem books_repay {c : Closure} {n w : Nat} {due : List Nat}
    (h : Books c (some (n, w :: due))) : Books (c.repay w n) (some (n, due)) := by
  have hw := lt_of_owed (h.due_owes List.mem_cons_self)
  have hmem := fun x q => mem_owed_repay (m := n) hw (h.owed_nodup w) (s := x) (p := q)
  have hmark : ∀ x, ((c.repay w n).cell x).mark = (c.cell x).mark :=
    field_repay (·.mark) (fun _ _ => rfl) c w n
  have hwait : ∀ x, ((c.repay w n).cell x).waiting = (c.cell x).waiting :=
    field_repay (·.waiting) (fun _ _ => rfl) c w n
  have hdue : (w :: due).Nodup := by simpa [creditors] using h.creditors_nodup n
  constructor
  case owed_iff =>
    intro x q
    rw [hmem, h.owed_iff]
    simp only [creditors, hwait]
    by_cases hq : q = n
    · -- `w` was the first of those due, and is due only once
      rw [if_pos hq, if_pos hq, List.mem_cons]
      have hwd := (List.nodup_cons.mp hdue).1
      constructor
      · rintro ⟨rfl | hx, hne⟩
        · exact absurd ⟨rfl, hq⟩ hne
        · exact hx
      · exact fun hx => ⟨.inr hx, fun e => hwd (e.1 ▸ hx)⟩
    · rw [if_neg hq, if_neg hq]
      exact and_iff_left fun e => hq e.2
  case owed_nodup =>
    intro x
    rw [owed_repay hw]
    split
    · exact (h.owed_nodup w).erase n
    · exact h.owed_nodup x
  case creditors_nodup =>
    intro q
    have hq := h.creditors_nodup q
    simp only [creditors, hwait] at hq ⊢
    split
    · exact (List.nodup_cons.mp hdue).2
    · next hqn => rwa [if_neg hqn] at hq
  case active_iff => intro x; rw [hmark]; exact h.active_iff x
  case nodes_nodup => exact h.nodes_nodup
  case below =>
    intro l₁ x l₂ hl q hq
    exact h.below l₁ x l₂ hl q ((hmem x q).mp hq).1
  case fresh =>
    intro x hx
    rw [hmark] at hx
    refine List.eq_nil_iff_forall_not_mem.mpr fun q hq => ?_
    have hq := ((hmem x q).mp hq).1
    rw [h.fresh x hx] at hq
    cases hq
  case held =>
    intro x q hq
    refine (h.held x q ((hmem x q).mp hq).1).imp id ?_
    rintro ⟨_, hl⟩
    cases hl
    exact ⟨due, rfl⟩
  case left =>
    intro m due' hl
    cases hl
    obtain ⟨h₁, h₂, h₃⟩ := h.left n (w :: due) rfl
    exact ⟨(hmark n).trans h₁, fun hn => h₂ ((hmem n n).mp hn).1, (hwait n).trans h₃⟩

/-- One node that is due is served. -/
theorem books_serve {c : Closure} {n w : Nat} {due : List Nat}
    (h : Books c (some (n, w :: due))) : Books (c.serve n w) (some (n, due)) := by
  have how := h.due_owes List.mem_cons_self
  have hr := books_repay h
  have hdone : ((c.repay w n).cell w).mark = .done := by
    rw [field_repay (·.mark) fun _ _ => rfl]
    exact h.due_done List.mem_cons_self
  have hw : w ∉ (c.repay w n).nodes := fun hw => by
    rw [(hr.active_iff w).mpr hw] at hdone
    cases hdone
  rw [serve_of_ne (h.due_ne List.mem_cons_self)]
  -- `w` is not on the path, so nothing is asked of what it takes over
  refine books_inherit hr (by simp [hdone]) (by simpa using lt_of_owed how) fun p hp _ => ?_
  refine ⟨(hr.held n p hp).resolve_right ?_, fun l₁ l₂ hl => absurd (by simp [hl]) hw⟩
  rintro ⟨_, hl⟩
  cases hl
  exact (hr.left n due rfl).2.1 hp

theorem books_serveAll {n : Nat} {due : List Nat} :
    ∀ {c : Closure}, Books c (some (n, due)) → Books (c.serveAll n due) (some (n, [])) := by
  induction due with
  | nil => exact fun h => h
  | cons w due ih => exact fun h => ih (books_serve h)

/-- A node does not owe its own table, so there is no debt to strike when it is left. -/
theorem owed_settle {c : Closure} {n : Nat} {links : List Nat} {path : List (Nat × List Nat)}
    (h : Books c none) (hp : c.path = (n, links) :: path) (s : Nat) :
    (({ c with path }.settle n).cell s).owed = (c.cell s).owed := by
  rw [cell_settle (c := { c with path }) (h.top_lt hp)]
  split
  · next hs =>
      rw [hs]
      exact List.erase_of_not_mem (h.not_self n)
  · rfl

/-- The top of the path is marked as left, and the nodes that wait for it become due. -/
theorem books_settle {c : Closure} {n : Nat} {links : List Nat} {path : List (Nat × List Nat)}
    (h : Books c none) (hp : c.path = (n, links) :: path) :
    Books ({ c with path }.settle n) (some (n, (c.cell n).waiting)) := by
  have hn : c.nodes = n :: path.map (·.1) := by rw [nodes, hp]; rfl
  have hnd := List.nodup_cons.mp (hn ▸ h.nodes_nodup)
  have hcell := cell_settle (c := { c with path }) (h.top_lt hp)
  have howed := owed_settle h hp
  have hcred : ∀ q, ({ c with path }.settle n).creditors (some (n, (c.cell n).waiting)) q =
      c.creditors none q := by
    intro q
    simp only [creditors]
    split
    · next hq => rw [hq]
    · next hq => rw [hcell, if_neg hq]; rfl
  constructor
  case owed_iff => intro x q; rw [howed, hcred]; exact h.owed_iff x q
  case owed_nodup => intro x; rw [howed]; exact h.owed_nodup x
  case creditors_nodup => intro q; rw [hcred]; exact h.creditors_nodup q
  case active_iff =>
    intro x
    rw [hcell]
    split
    · next hx => exact iff_of_false (by simp) (hx ▸ hnd.1)
    · next hx =>
        refine (h.active_iff x).trans ?_
        rw [hn, List.mem_cons, or_iff_right hx]
        rfl
  case nodes_nodup => exact hnd.2
  case below =>
    intro l₁ x l₂ hl q hq
    rw [howed] at hq
    exact h.below (n :: l₁) x l₂ (by rw [hn, List.cons_append]; exact congrArg _ hl) q hq
  case fresh =>
    intro x hx
    rw [howed]
    rw [hcell] at hx
    split at hx
    · cases hx
    · exact h.fresh x hx
  case held =>
    intro x q hq
    rw [howed] at hq
    rcases h.held x q hq with hm | ⟨_, hl⟩
    · rw [hn] at hm
      rcases List.mem_cons.mp hm with rfl | hm
      · exact .inr ⟨_, rfl⟩
      · exact .inl hm
    · cases hl
  case left =>
    intro m due hl
    cases hl
    rw [hcell, if_pos rfl]
    exact ⟨rfl, fun hm => h.not_self n (List.mem_of_mem_erase hm), rfl⟩

/-- When no node is due any more, nobody owes anything to the node that has been left. -/
theorem books_close {c : Closure} {n : Nat} (h : Books c (some (n, []))) : Books c none := by
  have hcred : ∀ q, c.creditors none q = c.creditors (some (n, [])) q := by
    intro q
    simp only [creditors]
    split
    · next hq => rw [hq, (h.left n [] rfl).2.2]
    · rfl
  refine ⟨fun x q => ?_, h.owed_nodup, fun q => ?_, h.active_iff, h.nodes_nodup, h.below,
    h.fresh, fun x q hq => .inl ?_, fun _ _ hl => nomatch hl⟩
  · rw [hcred]; exact h.owed_iff x q
  · rw [hcred]; exact h.creditors_nodup q
  · refine (h.held x q hq).resolve_right ?_
    rintro ⟨_, hl⟩
    cases hl
    have hx := (h.owed_iff x n).mp hq
    simp [creditors] at hx

/-- The top of the path is left. -/
theorem books_leave {c : Closure} {n : Nat} {links : List Nat} {path : List (Nat × List Nat)}
    (h : Books c none) (hp : c.path = (n, links) :: path) :
    Books ({ c with path }.leave n) none :=
  books_close (books_serveAll (books_settle h hp))

/-! ### Taking up a node, and a step -/

theorem books_visit {c : Closure} {n : Nat} (h : Books c none)
    (hf : (c.cell n).mark = .fresh) : Books (c.visit n) none := by
  have hmark := mark_visit (lt_of_mark (c := c) (n := n) (by simp [hf]))
  have hn : (c.visit n).nodes = n :: c.nodes := rfl
  have hnot : n ∉ c.nodes := fun hm => by
    rw [(h.active_iff n).mpr hm] at hf
    cases hf
  constructor
  case owed_iff => intro x q; simp only [creditors, owed_visit, waiting_visit]; exact h.owed_iff x q
  case owed_nodup => intro x; rw [owed_visit]; exact h.owed_nodup x
  case creditors_nodup => intro q; simp only [creditors, waiting_visit]; exact h.creditors_nodup q
  case active_iff =>
    intro x
    rw [hmark, hn, List.mem_cons, ← h.active_iff]
    by_cases hx : x = n <;> simp [hx]
  case nodes_nodup => exact List.nodup_cons.mpr ⟨hnot, h.nodes_nodup⟩
  case below =>
    intro l₁ x l₂ hl q hq
    rw [owed_visit] at hq
    rw [hn] at hl
    rcases l₁ with _ | ⟨y, l₁⟩
    · -- a node that is taken up owes nothing yet
      obtain ⟨rfl, -⟩ := List.cons.inj hl
      rw [h.fresh n hf] at hq
      cases hq
    · exact h.below l₁ x l₂ (List.cons.inj hl).2 q hq
  case fresh =>
    intro x hx
    rw [hmark] at hx
    rw [owed_visit]
    split at hx
    · cases hx
    · exact h.fresh x hx
  case held =>
    intro x q hq
    rw [owed_visit] at hq
    exact (h.held x q hq).imp (List.mem_cons_of_mem _) id
  case left => exact fun _ _ hl => nomatch hl

/-- The links that are still to be followed do not matter to the books. -/
theorem books_path {c : Closure} {path : List (Nat × List Nat)} {roots : List Nat}
    (h : Books c none) (hp : path.map (·.1) = c.nodes) : Books { c with path, roots } none :=
  h.congr (fun _ => rfl) (fun _ => rfl) (fun _ => rfl) hp

section Top

variable {c : Closure} {n m : Nat} {links : List Nat} {path : List (Nat × List Nat)}

/-- What is on the path and not its top is below the top. -/
theorem Books.under_top (h : Books c none) (hp : c.path = (n, links) :: path) {p : Nat}
    (hm : p ∈ c.nodes) (hne : p ≠ n) {l₁ l₂ : List Nat} (hl : c.nodes = l₁ ++ n :: l₂) :
    p ∈ l₂ := by
  have hn : c.nodes = n :: path.map (·.1) := by rw [nodes, hp]; rfl
  have hd := h.nodes_nodup
  rw [hl] at hm hd
  rcases l₁ with _ | ⟨y, l₁⟩
  · exact (List.mem_cons.mp hm).resolve_left hne
  · rw [hl, List.cons_append] at hn
    obtain ⟨rfl, -⟩ := List.cons.inj hn
    exact absurd (by simp) (List.nodup_cons.mp hd).1

/-- The top of the path takes over a table. -/
theorem books_inherit_top (h : Books c none) (hp : c.path = (n, links) :: path) :
    Books (c.inherit n m) none := by
  refine books_inherit h (by simp [h.top hp]) (h.top_lt hp) fun p ho hpn => ?_
  have hpm := (h.active_iff p).mp (h.owed_active ho)
  exact ⟨hpm, fun _ _ hl => h.under_top hp hpm hpn hl⟩

/-- The top of the path waits for an active node. -/
theorem books_await_top (h : Books c none) (hp : c.path = (n, links) :: path) (hne : m ≠ n)
    (hm : (c.cell m).mark = .active) : Books (c.await n m) none := by
  have hmn := (h.active_iff m).mp hm
  exact books_await h (by simp [h.top hp]) (h.top_lt hp) hmn
    fun _ _ hl => h.under_top hp hmn hne hl

end Top

/-- **Every step keeps the books.** -/
theorem books_step {c : Closure} (h : Books c none) : Books c.step none := by
  have hs := c.step_cases
  generalize c.step = c' at hs
  have pass : ∀ {n m links path}, c.path = (n, m :: links) :: path →
      Books { c with path := (n, links) :: path } none :=
    fun hp => books_path h (by rw [nodes, hp]; rfl)
  cases hs with
  | skip hp => exact pass hp
  | visit hp _ hm => exact books_visit (pass hp) hm
  | inherit hp => exact books_inherit_top (pass hp) rfl
  | await hp hne hm => exact books_await_top (pass hp) rfl hne hm
  | last hp => exact books_leave h hp
  | back hp => exact books_inherit_top (books_leave h hp) (path_leave _ _)
  | idle => exact h
  | root _ _ hm => exact books_visit (books_path h rfl) hm
  | known => exact books_path h rfl

end Multitouch.Closure
