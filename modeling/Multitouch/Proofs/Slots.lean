import Mathlib.Data.List.Perm.Subperm
import Mathlib.Data.Set.Card
import Mathlib.Order.Bounds.Basic
import Multitouch.Slots

/-!
# Slots are the lowest free numbers

Which numbers are held is told twice, by the bindings and by the marks, and the two agree
(`Slots.Consistent`).  So the first mark that is off is at the least number that no contact holds
(`Consistent.isLeast_lowestFree`).  As all numbers below it are held, by different contacts, it is
at most one more than the number of contacts that are bound (`Consistent.lowestFree_le`): the
numbers that are handed out never exceed the greatest number of contacts bound at one time.
-/

namespace Multitouch.Slots

/-- What slots are asked for. -/
inductive Request where
  | assign (touch : Nat)
  | release (touch : Nat)
  | get (touch : Nat)

/-- The contact that a request is about. -/
def Request.touch : Request → Nat
  | assign touch => touch
  | release touch => touch
  | get touch => touch

/-- The slots after a request. -/
def request (s : Slots) : Request → Slots
  | .assign touch => (s.assign touch).2
  | .release touch => (s.release touch).2
  | .get _ => s

/-- The slots after requests, one after the other. -/
def serve (s : Slots) (requests : List Request) : Slots :=
  requests.foldl request s

/-- The slots before any request: no contact is bound, or the one that starts a gesture. -/
def opening : Option Nat → Slots
  | none => empty
  | some touch => starting touch

/-- The greatest number of contacts that are bound at one time. -/
def peak (s : Slots) : List Request → Nat
  | [] => s.size
  | r :: requests => max s.size ((s.request r).peak requests)

/-- No contact holds the number, and it may be handed out. -/
def Free (s : Slots) (i : Nat) : Prop :=
  1 ≤ i ∧ ∀ touch, s.get? touch ≠ some i

/-- Each contact is bound once, and to a number of its own, and the marks tell which numbers are
held. -/
structure Consistent (s : Slots) : Prop where
  once : (s.bound.map Prod.fst).Nodup
  injective : ∀ t u i, s.get? t = some i → s.get? u = some i → t = u
  ne_zero : ∀ t, s.get? t ≠ some 0
  marked : ∀ i, s.taken[i]? = some true ↔ ∃ t, s.get? t = some i

variable {s : Slots} {touch u i : Nat}

/-! ### Bindings -/

theorem get?_bind : (s.bind touch i).get? u = if u = touch then some i else s.get? u := by
  rw [get?, bind, List.lookup_cons]
  by_cases h : u = touch
  · rw [if_pos h, beq_iff_eq.mpr h]
  · rw [if_neg h, beq_eq_false_iff_ne.mpr h]
    rfl

/-- A contact's bindings are dropped, and no others. -/
theorem lookup_filter (bound : List (Nat × Nat)) :
    (bound.filter (·.1 != touch)).lookup u = if u = touch then none else bound.lookup u := by
  induction bound with
  | nil => simp
  | cons b bound ih =>
      rw [List.filter_cons, List.lookup_cons]
      by_cases hb : b.1 = touch
      · rw [if_neg (by simpa using hb), ih]
        by_cases hu : u = touch
        · rw [if_pos hu, if_pos hu]
        · rw [if_neg hu, if_neg hu, beq_eq_false_iff_ne.mpr (hb ▸ hu)]
      · rw [if_pos (by simpa using hb), List.lookup_cons, ih]
        by_cases hu : u = b.1
        · rw [beq_iff_eq.mpr hu]
          exact (if_neg fun he => hb (hu.symm.trans he)).symm
        · rw [beq_eq_false_iff_ne.mpr hu]

theorem assign_of_bound (h : s.get? touch = some i) : s.assign touch = (i, s) := by
  rw [assign, h]

theorem assign_of_unbound (h : s.get? touch = none) :
    s.assign touch = (s.lowestFree, s.bind touch s.lowestFree) := by
  rw [assign, h]

theorem release_of_unbound (h : s.get? touch = none) : s.release touch = (none, s) := by
  rw [release, h]

theorem release_fst (s : Slots) (touch : Nat) : (s.release touch).1 = s.get? touch := by
  unfold release
  split <;> exact Eq.symm ‹_›

/-- A contact that asks for a number holds it, and the others hold theirs. -/
theorem get?_assign :
    (s.assign touch).2.get? u = if u = touch then some (s.assign touch).1 else s.get? u := by
  cases h : s.get? touch with
  | some i =>
      rw [assign_of_bound h]
      split
      · next hu => rw [hu, h]
      · rfl
  | none => rw [assign_of_unbound h, get?_bind]

/-- A released contact holds no number, and the others hold theirs. -/
theorem get?_release :
    (s.release touch).2.get? u = if u = touch then none else s.get? u := by
  cases h : s.get? touch with
  | some i =>
      rw [release, h]
      exact lookup_filter s.bound
  | none =>
      rw [release_of_unbound h]
      split
      · next hu => rw [hu, h]
      · rfl

/-- A request leaves the other contacts as they were. -/
theorem get?_request {r : Request} (hu : u ≠ r.touch) : (s.request r).get? u = s.get? u := by
  cases r with
  | assign touch => exact get?_assign.trans (if_neg hu)
  | release touch => exact get?_release.trans (if_neg hu)
  | get touch => rfl

/-- An event binds its contact, or unbinds it if it is released. -/
theorem get?_observe {e : Event} :
    (s.observe e).2.get? u =
      if u = e.touch then if e.phase = .release then none else some (s.assign e.touch).1
      else s.get? u := by
  unfold observe
  dsimp only
  split
  · rw [get?_release, get?_assign]
    split <;> rfl
  · exact get?_assign

theorem observe_fst (s : Slots) (e : Event) :
    (s.observe e).1 = e.symbol (s.assign e.touch).1 := rfl

/-! ### Marks -/

/-- Binding a contact to a number turns its mark on. -/
theorem taken_bind {j : Nat} :
    (s.bind touch i).taken[j]? = some true ↔ j = i ∨ s.taken[j]? = some true := by
  have hlong : i < (s.taken ++ List.replicate (i + 1 - s.taken.length) false).length := by
    rw [List.length_append, List.length_replicate]
    omega
  rw [bind, List.getElem?_set, if_pos hlong]
  by_cases hj : i = j
  · simp [hj]
  · rw [if_neg hj, List.getElem?_append, List.getElem?_replicate]
    split
    · simp [Ne.symm hj]
    · next h =>
        -- the row of marks has been made longer by marks that are off
        rw [List.getElem?_eq_none (Nat.not_lt.mp h)]
        split <;> simp [Ne.symm hj]

theorem taken_set {j : Nat} :
    (s.taken.set i false)[j]? = some true ↔ j ≠ i ∧ s.taken[j]? = some true := by
  rw [List.getElem?_set]
  by_cases hj : i = j
  · rw [if_pos hj]
    split <;> simp [hj]
  · rw [if_neg hj]
    simp [Ne.symm hj]

/-- The mark of the lowest free number is off. -/
theorem taken_lowestFree (s : Slots) : s.taken[s.lowestFree]? ≠ some true := by
  rw [lowestFree, Nat.add_comm, ← List.getElem?_drop]
  intro h
  obtain ⟨hlt, htrue⟩ := List.getElem?_eq_some_iff.mp h
  rw [List.getElem_idxOf hlt] at htrue
  cases htrue

/-- The marks below the lowest free number are on. -/
theorem taken_of_lt_lowestFree (hi : 1 ≤ i) (h : i < s.lowestFree) :
    s.taken[i]? = some true := by
  have hidx : i - 1 < (s.taken.drop 1).findIdx (· == false) := by
    rw [lowestFree] at h
    exact Nat.sub_lt_left_of_lt_add hi (by rwa [Nat.add_comm])
  have hlt := hidx.trans_le List.findIdx_le_length
  have hon := List.not_of_lt_findIdx hidx
  rw [beq_eq_false_iff_ne, Ne, Bool.not_eq_false] at hon
  have hget := List.getElem?_eq_some_iff.mpr ⟨hlt, hon⟩
  rwa [List.getElem?_drop, Nat.add_sub_cancel' hi] at hget

/-! ### Consistency -/

theorem consistent_empty : Consistent empty where
  once := List.nodup_nil
  injective := nofun
  ne_zero := nofun
  marked := by simp [empty, get?]

/-- Binding a new contact to a free number. -/
theorem Consistent.bind (h : s.Consistent) (ht : s.get? touch = none) (hi : s.Free i) :
    (s.bind touch i).Consistent where
  once := by
    refine List.nodup_cons.mpr ⟨fun hmem => ?_, h.once⟩
    obtain ⟨b, hb, rfl⟩ := List.mem_map.mp hmem
    exact bne_iff_ne.mp (List.lookup_eq_none_iff.mp ht b hb) rfl
  injective t u j := by
    rw [get?_bind, get?_bind]
    intro h₁ h₂
    split at h₁ <;> split at h₂
    · next ht hu => exact ht.trans hu.symm
    · cases h₁
      exact absurd h₂ (hi.2 u)
    · cases h₂
      exact absurd h₁ (hi.2 t)
    · exact h.injective t u j h₁ h₂
  ne_zero t := by
    rw [get?_bind]
    split
    · intro h₀
      cases h₀
      exact absurd hi.1 (by decide)
    · exact h.ne_zero t
  marked j := by
    rw [taken_bind, h.marked]
    constructor
    · rintro (rfl | ⟨t, htj⟩)
      · exact ⟨touch, get?_bind.trans (if_pos rfl)⟩
      · refine ⟨t, get?_bind.trans ((if_neg fun he => ?_).trans htj)⟩
        rw [he, ht] at htj
        cases htj
    · rintro ⟨t, htj⟩
      rw [get?_bind] at htj
      split at htj
      · exact .inl (Option.some.inj htj).symm
      · exact .inr ⟨t, htj⟩

/-- **The number handed out to a new contact is the least that no contact holds.** -/
theorem Consistent.isLeast_lowestFree (h : s.Consistent) :
    IsLeast {i | s.Free i} s.lowestFree := by
  refine ⟨⟨Nat.le_add_left 1 _, fun t ht => ?_⟩, fun i hi => ?_⟩
  · exact s.taken_lowestFree ((h.marked _).mpr ⟨t, ht⟩)
  · by_contra hlt
    obtain ⟨t, ht⟩ := (h.marked i).mp (taken_of_lt_lowestFree hi.1 (Nat.not_le.mp hlt))
    exact hi.2 t ht

theorem Consistent.assign (h : s.Consistent) (touch : Nat) : (s.assign touch).2.Consistent := by
  cases ht : s.get? touch with
  | some i =>
      rw [assign_of_bound ht]
      exact h
  | none =>
      rw [assign_of_unbound ht]
      exact h.bind ht h.isLeast_lowestFree.1

theorem Consistent.release (h : s.Consistent) (touch : Nat) :
    (s.release touch).2.Consistent := by
  have hget := @get?_release s touch
  cases ht : s.get? touch with
  | none =>
      rw [release_of_unbound ht]
      exact h
  | some i =>
      refine ⟨?_, fun t u j => ?_, fun t => ?_, fun j => ?_⟩
      · rw [Slots.release, ht]
        exact h.once.sublist (List.Sublist.map _ List.filter_sublist)
      · rw [hget, hget]
        split
        · exact nofun
        · split
          · exact nofun
          · exact h.injective t u j
      · rw [hget]
        split
        · exact nofun
        · exact h.ne_zero t
      · have hmark : (s.release touch).2.taken = s.taken.set i false := by
          rw [Slots.release, ht]
        rw [hmark, taken_set, h.marked]
        constructor
        · rintro ⟨hj, t, htj⟩
          refine ⟨t, (hget (u := t)).trans ((if_neg fun he => hj ?_).trans htj)⟩
          rw [he, ht] at htj
          exact (Option.some.inj htj).symm
        · rintro ⟨t, htj⟩
          rw [hget] at htj
          split at htj
          · cases htj
          · next hne =>
              exact ⟨fun hj => hne (h.injective t touch j htj (hj ▸ ht)), t, htj⟩

theorem Consistent.request (h : s.Consistent) (r : Request) : (s.request r).Consistent := by
  cases r with
  | assign touch => exact h.assign touch
  | release touch => exact h.release touch
  | get touch => exact h

theorem Consistent.observe (h : s.Consistent) (e : Event) : (s.observe e).2.Consistent := by
  unfold Slots.observe
  dsimp only
  split
  · exact (h.assign e.touch).release e.touch
  · exact h.assign e.touch

/-- The contact that starts a gesture is bound as the first one to ask for a number. -/
theorem assign_empty (touch : Nat) : empty.assign touch = (1, starting touch) := rfl

theorem consistent_opening (first : Option Nat) : (opening first).Consistent := by
  cases first with
  | none => exact consistent_empty
  | some touch => exact consistent_empty.assign touch

theorem Consistent.serve {requests : List Request} :
    ∀ {s : Slots}, s.Consistent → (s.serve requests).Consistent := by
  induction requests with
  | nil => exact fun h => h
  | cons r requests ih => exact fun h => ih (h.request r)

/-! ### How many contacts are bound -/

theorem Consistent.get?_iff (h : s.Consistent) :
    s.get? touch = some i ↔ (touch, i) ∈ s.bound := by
  constructor
  · intro hget
    obtain ⟨before, later, hbound, -⟩ := List.lookup_eq_some_iff.mp hget
    exact hbound ▸ List.mem_append_cons_self
  · intro hmem
    obtain ⟨before, later, hbound⟩ := List.append_of_mem hmem
    have honce := h.once
    rw [hbound, List.map_append, List.map_cons, List.nodup_middle, List.nodup_cons] at honce
    refine List.lookup_eq_some_iff.mpr ⟨before, later, hbound, fun b hb => ?_⟩
    refine bne_iff_ne.mpr fun he => honce.1 (List.mem_append_left _ ?_)
    exact List.mem_map.mpr ⟨b, hb, he.symm⟩

/-- The size counts the contacts that are bound. -/
theorem Consistent.size_eq (h : s.Consistent) :
    s.size = {touch | ∃ i, s.get? touch = some i}.ncard := by
  have hset : {touch | ∃ i, s.get? touch = some i} = ↑(s.bound.map Prod.fst).toFinset := by
    ext touch
    simp [h.get?_iff]
  rw [hset, Set.ncard_coe_finset, List.toFinset_card_of_nodup h.once, List.length_map]
  rfl

/-- The numbers below the lowest free one are held, each by a contact. -/
theorem Consistent.lowestFree_le (h : s.Consistent) : s.lowestFree ≤ s.size + 1 := by
  have hheld : List.range' 1 (s.lowestFree - 1) ⊆ s.bound.map Prod.snd := fun i hi => by
    obtain ⟨hpos, hlt⟩ := List.mem_range'_1.mp hi
    obtain ⟨t, ht⟩ := (h.marked i).mp (taken_of_lt_lowestFree hpos (by omega))
    exact List.mem_map.mpr ⟨(t, i), h.get?_iff.mp ht, rfl⟩
  have hlength := (List.subperm_of_subset List.nodup_range' hheld).length_le
  rw [List.length_range', List.length_map] at hlength
  rw [size]
  omega

/-- A new contact's number is at most the number of contacts that are then bound. -/
theorem Consistent.assign_le_size (h : s.Consistent) (ht : s.get? touch = none) :
    (s.assign touch).1 ≤ (s.assign touch).2.size := by
  rw [assign_of_unbound ht]
  exact h.lowestFree_le

/-- A request hands out no number beyond the greatest one held, or the number of contacts that
are then bound. -/
theorem Consistent.le_of_request (h : s.Consistent) {p : Nat}
    (hp : ∀ t i, s.get? t = some i → i ≤ p) (r : Request) :
    ∀ t i, (s.request r).get? t = some i → i ≤ max p (s.request r).size := by
  intro t i hti
  by_cases ht : t = r.touch
  · cases r with
    | assign touch =>
        cases hold : s.get? touch with
        | some j =>
            rw [Slots.request, assign_of_bound hold] at hti
            exact (hp t i hti).trans (Nat.le_max_left _ _)
        | none =>
            obtain rfl : t = touch := ht
            rw [Slots.request, get?_assign, if_pos rfl] at hti
            cases hti
            exact (h.assign_le_size hold).trans (Nat.le_max_right _ _)
    | release touch =>
        obtain rfl : t = touch := ht
        rw [Slots.request, get?_release, if_pos rfl] at hti
        cases hti
    | get touch => exact (hp t i hti).trans (Nat.le_max_left _ _)
  · rw [get?_request ht] at hti
    exact (hp t i hti).trans (Nat.le_max_left _ _)

theorem size_le_peak (s : Slots) (requests : List Request) : s.size ≤ s.peak requests := by
  cases requests with
  | nil => exact le_rfl
  | cons r requests => exact Nat.le_max_left _ _

/-- **No number exceeds the greatest number of contacts bound at one time**, if none does so to
begin with. -/
theorem Consistent.le_peak {requests : List Request} : ∀ {s : Slots} {p : Nat}, s.Consistent →
    (∀ t i, s.get? t = some i → i ≤ p) →
      ∀ t i, (s.serve requests).get? t = some i → i ≤ max p (s.peak requests) := by
  induction requests with
  | nil => exact fun _ hp t i hti => (hp t i hti).trans (Nat.le_max_left _ _)
  | cons r requests ih =>
      intro s p h hp t i hti
      have hlater := ih (h.request r) (h.le_of_request hp r) t i hti
      have hsize := (s.request r).size_le_peak requests
      have hpeak : (s.request r).peak requests ≤ s.peak (r :: requests) := Nat.le_max_right _ _
      omega

/-- **Slots are the lowest free numbers.**  Whatever slots have been asked for, different contacts
hold different numbers, none of them `0`, and the marks tell which numbers are held.  A bound
contact is assigned the number it holds, and nothing changes.  A new one gets the least number
that no contact holds, which is at most the number of contacts then bound.  A contact that is
released gives its number back, if it holds one.  No request concerns other contacts.  Numbers
never exceed the greatest number of contacts bound at one time. -/
theorem lowest_free (first : Option Nat) (requests : List Request) :
    let s := (opening first).serve requests
    (∀ t u i, s.get? t = some i → s.get? u = some i → t = u) ∧
    (∀ t, s.get? t ≠ some 0) ∧
    (∀ i, s.taken[i]? = some true ↔ ∃ t, s.get? t = some i) ∧
    s.size = {t | ∃ i, s.get? t = some i}.ncard ∧
    (∀ t i, s.get? t = some i → s.assign t = (i, s)) ∧
    (∀ t, s.get? t = none →
      IsLeast {i | s.Free i} (s.assign t).1 ∧ (s.assign t).1 ≤ (s.assign t).2.size ∧
        (s.assign t).2.get? t = some (s.assign t).1) ∧
    (∀ t, (s.release t).1 = s.get? t ∧ (s.release t).2.get? t = none ∧
      (s.get? t = none → (s.release t).2 = s)) ∧
    (∀ r u, u ≠ r.touch → (s.request r).get? u = s.get? u) ∧
    ∀ t i, s.get? t = some i → i ≤ (opening first).peak requests := by
  intro s
  have h : s.Consistent := (consistent_opening first).serve
  refine ⟨h.injective, h.ne_zero, h.marked, h.size_eq, fun _ _ => assign_of_bound, fun t ht => ?_,
    fun t => ⟨s.release_fst t, get?_release.trans (if_pos rfl), fun ht => ?_⟩,
    fun _ _ => get?_request, fun t i hti => ?_⟩
  · refine ⟨?_, h.assign_le_size ht, get?_assign.trans (if_pos rfl)⟩
    rw [assign_of_unbound ht]
    exact h.isLeast_lowestFree
  · rw [release_of_unbound ht]
  · have hstart : ∀ t i, (opening first).get? t = some i → i ≤ (opening first).size := by
      intro t i hti
      cases first with
      | none => cases hti
      | some touch =>
          have hfirst := consistent_empty.le_of_request (p := 0) nofun (.assign touch) t i hti
          rwa [Nat.zero_max] at hfirst
    have hpeak := (consistent_opening first).le_peak hstart t i hti
    have hsize := (opening first).size_le_peak requests
    omega

end Multitouch.Slots
