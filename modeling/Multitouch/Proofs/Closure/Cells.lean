import Multitouch.Proofs.Networks
import Multitouch.Network.Closure

/-!
# What the search does to its cells

Each operation of the search for the closure, by what it leaves as it is and what it changes.
What a cell has to give is seen as a set of *offers*: a destination for a key and a target, or
that the final node is reached.  `inherit` adds the offers and the debts of one node to those of
another (`offers_inherit`, `mem_owed_inherit`) and does nothing else to debts or offers.

An operation that leaves some part of every cell alone is said so for any reading `g` of a cell
that does not look at the parts the operation writes (`field_await` and the like); links, marks
and tables are such readings.
-/

namespace Multitouch

/-- What a cell can give: a destination for a key and a target, or, with `none`, the final node. -/
def Cell.Offers (cell : Cell) : Option (Key × String × Nat) → Prop
  | none => cell.final = true
  | some (key, target, d) => d ∈ cell.table.dests key target

namespace Closure

variable {α : Type}

theorem cell_of_size_le {c : Closure} {n : Nat} (h : c.cells.size ≤ n) :
    c.cell n = ⟨[], .empty, false, .done, [], []⟩ := by
  rw [cell, Array.getElem?_eq_none h, Option.getD_none]

/-- Only a node's cell has a mark other than `done`. -/
theorem lt_of_mark {c : Closure} {n : Nat} (h : (c.cell n).mark ≠ .done) : n < c.cells.size := by
  by_contra hn
  exact h (by rw [cell_of_size_le (Nat.le_of_not_lt hn)])

theorem lt_of_owed {c : Closure} {n p : Nat} (h : p ∈ (c.cell n).owed) : n < c.cells.size := by
  by_contra hn
  rw [cell_of_size_le (Nat.le_of_not_lt hn)] at h
  cases h

@[simp] theorem size_modify (c : Closure) (n : Nat) (f : Cell → Cell) :
    (c.modify n f).cells.size = c.cells.size :=
  Array.size_modify

theorem cell_modify_self {c : Closure} {n : Nat} (f : Cell → Cell) (h : n < c.cells.size) :
    (c.modify n f).cell n = f (c.cell n) := by
  simp [cell, modify, Array.getElem?_modify, Array.getElem?_eq_getElem h]

theorem cell_modify_ne {c : Closure} {n s : Nat} (f : Cell → Cell) (h : s ≠ n) :
    (c.modify n f).cell s = c.cell s := by
  simp only [cell, modify, Array.getElem?_modify, if_neg h.symm]

theorem cell_modify {c : Closure} {n : Nat} (f : Cell → Cell) (hn : n < c.cells.size) (s : Nat) :
    (c.modify n f).cell s = if s = n then f (c.cell n) else c.cell s := by
  split
  · next hs => rw [hs, cell_modify_self f hn]
  · next hs => rw [cell_modify_ne f hs]

/-- A reading of cells that `f` does not touch. -/
theorem field_modify {c : Closure} {n : Nat} {f : Cell → Cell} (g : Cell → α)
    (h : ∀ cell, g (f cell) = g cell) (s : Nat) : g ((c.modify n f).cell s) = g (c.cell s) := by
  by_cases hs : s = n
  · subst hs
    rcases Nat.lt_or_ge s c.cells.size with hl | hl
    · rw [cell_modify_self f hl, h]
    · rw [cell_of_size_le (by simpa using hl), cell_of_size_le hl]
  · rw [cell_modify_ne f hs]

/-! ### Noting a debt -/

/-- Notes with `n` that it owes the table of `m`. -/
def owe (c : Closure) (n m : Nat) : Closure :=
  c.modify n fun cell => { cell with owed := cell.owed ++ [m] }

/-- Notes with `m` that `n` waits for it. -/
def enlist (c : Closure) (m n : Nat) : Closure :=
  c.modify m fun cell => { cell with waiting := cell.waiting ++ [n] }

section Await

variable {c : Closure} {n m : Nat}

theorem await_of_mem (h : m ∈ (c.cell n).owed) : c.await n m = c := by
  rw [await, if_pos h]

theorem await_of_not_mem (h : m ∉ (c.cell n).owed) : c.await n m = (c.owe n m).enlist m n := by
  rw [await, if_neg h]
  rfl

theorem owed_enlist (s : Nat) : ((c.enlist m n).cell s).owed = (c.cell s).owed :=
  field_modify (·.owed) (fun _ => by rfl) s

theorem waiting_owe (s : Nat) : ((c.owe n m).cell s).waiting = (c.cell s).waiting :=
  field_modify (·.waiting) (fun _ => by rfl) s

theorem owed_await (hn : n < c.cells.size) (h : m ∉ (c.cell n).owed) (s : Nat) :
    ((c.await n m).cell s).owed =
      if s = n then (c.cell n).owed ++ [m] else (c.cell s).owed := by
  rw [await_of_not_mem h, owed_enlist, owe, cell_modify _ hn]
  split <;> rfl

theorem waiting_await (hm : m < c.cells.size) (h : m ∉ (c.cell n).owed) (p : Nat) :
    ((c.await n m).cell p).waiting =
      if p = m then (c.cell m).waiting ++ [n] else (c.cell p).waiting := by
  rw [await_of_not_mem h, enlist, cell_modify _ (by simpa [owe] using hm)]
  split
  · rw [waiting_owe]
  · exact waiting_owe p

theorem mem_owed_await (hn : n < c.cells.size) {s p : Nat} :
    p ∈ ((c.await n m).cell s).owed ↔ p ∈ (c.cell s).owed ∨ s = n ∧ p = m := by
  by_cases h : m ∈ (c.cell n).owed
  · rw [await_of_mem h]
    exact ⟨.inl, fun h' => h'.elim id fun ⟨hs, hp⟩ => hs ▸ hp ▸ h⟩
  · rw [owed_await hn h]
    by_cases hs : s = n <;> simp [hs]

variable (c n m)

@[simp] theorem size_await : (c.await n m).cells.size = c.cells.size := by
  unfold await; split <;> simp

@[simp] theorem path_await : (c.await n m).path = c.path := by
  unfold await; split <;> rfl

@[simp] theorem roots_await : (c.await n m).roots = c.roots := by
  unfold await; split <;> rfl

theorem field_await (g : Cell → α) (ho : ∀ cell l, g { cell with owed := l } = g cell)
    (hw : ∀ cell l, g { cell with waiting := l } = g cell) (s : Nat) :
    g ((c.await n m).cell s) = g (c.cell s) := by
  by_cases h : m ∈ (c.cell n).owed
  · rw [await_of_mem h]
  · rw [await_of_not_mem h, enlist, field_modify g fun _ => hw _ _, owe,
      field_modify g fun _ => ho _ _]

@[simp] theorem mark_await (s : Nat) : ((c.await n m).cell s).mark = (c.cell s).mark :=
  field_await c n m (·.mark) (fun _ _ => rfl) (fun _ _ => rfl) s

@[simp] theorem links_await (s : Nat) : ((c.await n m).cell s).links = (c.cell s).links :=
  field_await c n m (·.links) (fun _ _ => rfl) (fun _ _ => rfl) s

theorem offers_await (s : Nat) (o : Option (Key × String × Nat)) :
    ((c.await n m).cell s).Offers o = (c.cell s).Offers o :=
  field_await c n m (fun cell => cell.Offers o) (fun _ _ => by cases o <;> rfl)
    (fun _ _ => by cases o <;> rfl) s

end Await

/-! ### Taking over a table -/

/-- Gives `n` the table of `m` and what `m` knows of the final node, but none of its debts. -/
def grant (c : Closure) (n m : Nat) : Closure :=
  c.modify n fun cell =>
    { cell with
      table := cell.table.union (c.cell m).table
      final := cell.final || (c.cell m).final }

/-- Notes a list of debts of one node. -/
def awaitAll (c : Closure) (n : Nat) (debts : List Nat) : Closure :=
  debts.foldl (fun c p => c.await n p) c

theorem inherit_eq (c : Closure) (n m : Nat) :
    c.inherit n m = (c.grant n m).awaitAll n ((c.cell m).owed.filter (· != n)) := rfl

theorem field_awaitAll (g : Cell → α) (ho : ∀ cell l, g { cell with owed := l } = g cell)
    (hw : ∀ cell l, g { cell with waiting := l } = g cell) (c : Closure) (n s : Nat)
    (debts : List Nat) : g ((c.awaitAll n debts).cell s) = g (c.cell s) := by
  induction debts generalizing c with
  | nil => rfl
  | cons p debts ih => exact (ih (c.await n p)).trans (field_await c n p g ho hw s)

@[simp] theorem path_awaitAll (c : Closure) (n : Nat) (debts : List Nat) :
    (c.awaitAll n debts).path = c.path := by
  induction debts generalizing c with
  | nil => rfl
  | cons p debts ih => exact (ih (c.await n p)).trans (path_await c n p)

@[simp] theorem roots_awaitAll (c : Closure) (n : Nat) (debts : List Nat) :
    (c.awaitAll n debts).roots = c.roots := by
  induction debts generalizing c with
  | nil => rfl
  | cons p debts ih => exact (ih (c.await n p)).trans (roots_await c n p)

@[simp] theorem size_awaitAll (c : Closure) (n : Nat) (debts : List Nat) :
    (c.awaitAll n debts).cells.size = c.cells.size := by
  induction debts generalizing c with
  | nil => rfl
  | cons p debts ih => exact (ih (c.await n p)).trans (size_await c n p)

theorem mem_owed_awaitAll {c : Closure} {n s p : Nat} {debts : List Nat}
    (hn : n < c.cells.size) :
    p ∈ ((c.awaitAll n debts).cell s).owed ↔ p ∈ (c.cell s).owed ∨ s = n ∧ p ∈ debts := by
  induction debts generalizing c with
  | nil => simp [awaitAll]
  | cons q debts ih =>
      refine (ih (c := c.await n q) (by simpa using hn)).trans ?_
      rw [mem_owed_await hn, List.mem_cons]
      tauto

@[simp] theorem path_inherit (c : Closure) (n m : Nat) : (c.inherit n m).path = c.path := by
  rw [inherit_eq, path_awaitAll]; rfl

@[simp] theorem roots_inherit (c : Closure) (n m : Nat) : (c.inherit n m).roots = c.roots := by
  rw [inherit_eq, roots_awaitAll]; rfl

@[simp] theorem size_inherit (c : Closure) (n m : Nat) :
    (c.inherit n m).cells.size = c.cells.size := by
  rw [inherit_eq, size_awaitAll, grant, size_modify]

/-- `inherit` writes debts, tables and what is known of the final node. -/
theorem field_inherit (g : Cell → α) (ho : ∀ cell l, g { cell with owed := l } = g cell)
    (hw : ∀ cell l, g { cell with waiting := l } = g cell)
    (ht : ∀ cell t f, g { cell with table := t, final := f } = g cell) (c : Closure)
    (n m s : Nat) : g ((c.inherit n m).cell s) = g (c.cell s) := by
  rw [inherit_eq, field_awaitAll g ho hw, grant, field_modify g fun _ => ht _ _ _]

@[simp] theorem links_inherit (c : Closure) (n m s : Nat) :
    ((c.inherit n m).cell s).links = (c.cell s).links :=
  field_inherit (·.links) (fun _ _ => rfl) (fun _ _ => rfl) (fun _ _ _ => rfl) c n m s

@[simp] theorem mark_inherit (c : Closure) (n m s : Nat) :
    ((c.inherit n m).cell s).mark = (c.cell s).mark :=
  field_inherit (·.mark) (fun _ _ => rfl) (fun _ _ => rfl) (fun _ _ _ => rfl) c n m s

theorem mem_owed_inherit {c : Closure} {n m s p : Nat} (hn : n < c.cells.size) :
    p ∈ ((c.inherit n m).cell s).owed ↔
      p ∈ (c.cell s).owed ∨ s = n ∧ p ∈ (c.cell m).owed ∧ p ≠ n := by
  have ho : ((c.grant n m).cell s).owed = (c.cell s).owed :=
    field_modify (·.owed) (fun _ => by rfl) s
  rw [inherit_eq, mem_owed_awaitAll (by simpa [grant] using hn), ho, List.mem_filter, bne_iff_ne]

theorem offers_grant {c : Closure} {n m s : Nat} {o : Option (Key × String × Nat)}
    (hn : n < c.cells.size) :
    ((c.grant n m).cell s).Offers o ↔ (c.cell s).Offers o ∨ s = n ∧ (c.cell m).Offers o := by
  rw [grant, cell_modify _ hn]
  by_cases hs : s = n
  · subst hs
    cases o with
    | none => simp [Cell.Offers]
    | some o => simp [Cell.Offers, Table.mem_dests_union]
  · simp [hs]

theorem offers_inherit {c : Closure} {n m s : Nat} {o : Option (Key × String × Nat)}
    (hn : n < c.cells.size) :
    ((c.inherit n m).cell s).Offers o ↔ (c.cell s).Offers o ∨ s = n ∧ (c.cell m).Offers o := by
  rw [inherit_eq, field_awaitAll (fun cell => cell.Offers o) ?_ ?_, offers_grant hn]
  · intro cell l; cases o <;> rfl
  · intro cell l; cases o <;> rfl

/-! ### Leaving a node -/

/-- Strikes one debt of `n`. -/
def repay (c : Closure) (n m : Nat) : Closure :=
  c.modify n fun cell => { cell with owed := cell.owed.erase m }

/-- Marks a node as left, before the nodes that wait for it are served. -/
def settle (c : Closure) (n : Nat) : Closure :=
  c.modify n fun cell =>
    { cell with mark := .done, waiting := [], owed := cell.owed.erase n }

/-- Serves a list of nodes. -/
def serveAll (c : Closure) (m : Nat) (due : List Nat) : Closure :=
  due.foldl (fun c w => c.serve m w) c

theorem leave_eq (c : Closure) (n : Nat) :
    c.leave n = (c.settle n).serveAll n (c.cell n).waiting := rfl

theorem serve_of_ne {c : Closure} {m n : Nat} (h : n ≠ m) :
    c.serve m n = (c.repay n m).inherit n m := by
  rw [serve, if_neg h]
  rfl

theorem owed_repay {c : Closure} {n m : Nat} (hn : n < c.cells.size) (s : Nat) :
    ((c.repay n m).cell s).owed =
      if s = n then (c.cell n).owed.erase m else (c.cell s).owed := by
  rw [repay, cell_modify _ hn]
  split <;> rfl

/-- If a debt is noted once, it is gone when it is struck, and every other debt is left. -/
theorem mem_owed_repay {c : Closure} {n m : Nat} (hn : n < c.cells.size)
    (hd : (c.cell n).owed.Nodup) {s p : Nat} :
    p ∈ ((c.repay n m).cell s).owed ↔ p ∈ (c.cell s).owed ∧ ¬(s = n ∧ p = m) := by
  rw [owed_repay hn]
  by_cases hs : s = n
  · subst hs
    simp [hd.mem_erase_iff, and_comm]
  · simp [hs]

/-- `repay` writes debts only. -/
theorem field_repay (g : Cell → α) (ho : ∀ cell l, g { cell with owed := l } = g cell)
    (c : Closure) (n m s : Nat) : g ((c.repay n m).cell s) = g (c.cell s) :=
  field_modify g (fun _ => ho _ _) s

theorem offers_repay (c : Closure) (n m s : Nat) (o : Option (Key × String × Nat)) :
    ((c.repay n m).cell s).Offers o = (c.cell s).Offers o :=
  field_repay (fun cell => cell.Offers o) (fun _ _ => by cases o <;> rfl) c n m s

@[simp] theorem size_repay (c : Closure) (n m : Nat) :
    (c.repay n m).cells.size = c.cells.size :=
  size_modify _ _ _

@[simp] theorem size_settle (c : Closure) (n : Nat) : (c.settle n).cells.size = c.cells.size :=
  size_modify _ _ _

theorem cell_settle {c : Closure} {n : Nat} (hn : n < c.cells.size) (s : Nat) :
    (c.settle n).cell s =
      if s = n then
        { c.cell n with mark := .done, waiting := [], owed := (c.cell n).owed.erase n }
      else c.cell s :=
  cell_modify _ hn s

theorem offers_settle (c : Closure) (n s : Nat) (o : Option (Key × String × Nat)) :
    ((c.settle n).cell s).Offers o = (c.cell s).Offers o :=
  field_modify (fun cell => cell.Offers o) (fun _ => by cases o <;> rfl) s

@[simp] theorem path_serve (c : Closure) (m n : Nat) : (c.serve m n).path = c.path := by
  unfold serve
  split
  · rfl
  · rw [path_inherit]; rfl

@[simp] theorem roots_serve (c : Closure) (m n : Nat) : (c.serve m n).roots = c.roots := by
  unfold serve
  split
  · rfl
  · rw [roots_inherit]; rfl

@[simp] theorem size_serve (c : Closure) (m n : Nat) :
    (c.serve m n).cells.size = c.cells.size := by
  unfold serve
  split <;> simp

/-- `serve` writes what `inherit` writes. -/
theorem field_serve (g : Cell → α) (ho : ∀ cell l, g { cell with owed := l } = g cell)
    (hw : ∀ cell l, g { cell with waiting := l } = g cell)
    (ht : ∀ cell t f, g { cell with table := t, final := f } = g cell) (c : Closure)
    (m n s : Nat) : g ((c.serve m n).cell s) = g (c.cell s) := by
  unfold serve
  split
  · exact field_repay g ho c n m s
  · rw [field_inherit g ho hw ht]
    exact field_repay g ho c n m s

/-- What service keeps of a search, serving a whole list keeps. -/
theorem serveAll_keeps {P : Closure → Prop} {m : Nat} (h : ∀ c w, P c → P (c.serve m w))
    {due : List Nat} : ∀ {c : Closure}, P c → P (c.serveAll m due) := by
  induction due with
  | nil => exact fun hc => hc
  | cons w due ih => exact fun hc => ih (h _ w hc)

@[simp] theorem path_leave (c : Closure) (n : Nat) : (c.leave n).path = c.path :=
  serveAll_keeps (P := fun d => d.path = c.path) (fun _ _ h => by rw [path_serve, h]) rfl

@[simp] theorem roots_leave (c : Closure) (n : Nat) : (c.leave n).roots = c.roots :=
  serveAll_keeps (P := fun d => d.roots = c.roots) (fun _ _ h => by rw [roots_serve, h]) rfl

@[simp] theorem size_leave (c : Closure) (n : Nat) : (c.leave n).cells.size = c.cells.size :=
  serveAll_keeps (P := fun d => d.cells.size = c.cells.size)
    (fun _ _ h => by rw [size_serve, h]) (size_settle c n)

@[simp] theorem links_leave (c : Closure) (n s : Nat) :
    ((c.leave n).cell s).links = (c.cell s).links :=
  serveAll_keeps (P := fun d => (d.cell s).links = (c.cell s).links)
    (fun d w h => (field_serve (·.links) (fun _ _ => rfl) (fun _ _ => rfl) (fun _ _ _ => rfl)
      d n w s).trans h)
    (field_modify (·.links) (fun _ => by rfl) s)

theorem mark_leave {c : Closure} {n : Nat} (hn : n < c.cells.size) (s : Nat) :
    ((c.leave n).cell s).mark = if s = n then .done else (c.cell s).mark := by
  refine serveAll_keeps
    (P := fun d => (d.cell s).mark = if s = n then .done else (c.cell s).mark)
    (fun d w h => (field_serve (·.mark) (fun _ _ => rfl) (fun _ _ => rfl) (fun _ _ _ => rfl)
      d n w s).trans h) ?_
  show ((c.settle n).cell s).mark = if s = n then .done else (c.cell s).mark
  rw [cell_settle hn]
  split <;> rfl

/-! ### Taking up a node -/

/-- `visit` writes marks. -/
theorem field_visit (g : Cell → α) (hm : ∀ cell k, g { cell with mark := k } = g cell)
    (c : Closure) (n s : Nat) : g ((c.visit n).cell s) = g (c.cell s) :=
  field_modify (c := c) g (fun _ => hm _ _) s

@[simp] theorem owed_visit (c : Closure) (n s : Nat) :
    ((c.visit n).cell s).owed = (c.cell s).owed :=
  field_visit (·.owed) (fun _ _ => rfl) c n s

@[simp] theorem waiting_visit (c : Closure) (n s : Nat) :
    ((c.visit n).cell s).waiting = (c.cell s).waiting :=
  field_visit (·.waiting) (fun _ _ => rfl) c n s

@[simp] theorem links_visit (c : Closure) (n s : Nat) :
    ((c.visit n).cell s).links = (c.cell s).links :=
  field_visit (·.links) (fun _ _ => rfl) c n s

theorem offers_visit (c : Closure) (n s : Nat) (o : Option (Key × String × Nat)) :
    ((c.visit n).cell s).Offers o = (c.cell s).Offers o :=
  field_visit (fun cell => cell.Offers o) (fun _ _ => by cases o <;> rfl) c n s

theorem mark_visit {c : Closure} {n : Nat} (hn : n < c.cells.size) (s : Nat) :
    ((c.visit n).cell s).mark = if s = n then .active else (c.cell s).mark := by
  refine (congrArg (·.mark) (cell_modify (c := c) _ hn s)).trans ?_
  split <;> rfl

/-! ### The cases of a step -/

/-- What a step can be. -/
inductive Step (c : Closure) : Closure → Prop where
  /-- A link of a node to itself is passed over. -/
  | skip {n : Nat} {links : List Nat} {path : List (Nat × List Nat)} :
      c.path = (n, n :: links) :: path → Step c { c with path := (n, links) :: path }
  | visit {n m : Nat} {links : List Nat} {path : List (Nat × List Nat)} :
      c.path = (n, m :: links) :: path → m ≠ n → (c.cell m).mark = .fresh →
      Step c ({ c with path := (n, links) :: path }.visit m)
  | inherit {n m : Nat} {links : List Nat} {path : List (Nat × List Nat)} :
      c.path = (n, m :: links) :: path → m ≠ n → (c.cell m).mark = .done →
      Step c ({ c with path := (n, links) :: path }.inherit n m)
  | await {n m : Nat} {links : List Nat} {path : List (Nat × List Nat)} :
      c.path = (n, m :: links) :: path → m ≠ n → (c.cell m).mark = .active →
      Step c ({ c with path := (n, links) :: path }.await n m)
  /-- A root is left. -/
  | last {n : Nat} : c.path = [(n, [])] → Step c ({ c with path := [] }.leave n)
  /-- A node is left for the one it was taken up from. -/
  | back {n m : Nat} {links : List Nat} {path : List (Nat × List Nat)} :
      c.path = (n, []) :: (m, links) :: path →
      Step c (({ c with path := (m, links) :: path }.leave n).inherit m n)
  | idle : c.path = [] → c.roots = [] → Step c c
  | root {n : Nat} {roots : List Nat} :
      c.path = [] → c.roots = n :: roots → (c.cell n).mark = .fresh →
      Step c ({ c with roots }.visit n)
  /-- A root that has been taken up before is passed over. -/
  | known {n : Nat} {roots : List Nat} :
      c.path = [] → c.roots = n :: roots → (c.cell n).mark ≠ .fresh → Step c { c with roots }

/-- The cases of a step are those of the path and, where it is empty, of the roots. -/
theorem step_cases (c : Closure) : Step c c.step := by
  obtain ⟨cells, path, roots⟩ := c
  match path, roots with
  | (n, m :: links) :: path, roots =>
      by_cases hmn : m = n
      · subst hmn
        simp only [step, ↓reduceIte]
        exact .skip rfl
      · simp only [step, if_neg hmn]
        split
        · next h => exact .visit rfl hmn h
        · next h => exact .inherit rfl hmn h
        · next h => exact .await rfl hmn h
  | [(n, [])], roots => exact .last rfl
  | (n, []) :: (m, links) :: path, roots => exact .back rfl
  | [], [] => exact .idle rfl rfl
  | [], n :: roots =>
      simp only [step]
      split
      · next h => exact .root rfl rfl h
      · next h => exact .known rfl rfl h

end Closure

end Multitouch
