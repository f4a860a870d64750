import Multitouch.Proofs.Grammar.Rules

/-!
# The smallest parts are read as the rules write them

For each reader two statements.  What it reads is written by the rule, in front of what it leaves
(`number_sound` and the like).  And what the rule writes is read, if the text that follows could
not be read as more of it (`number_append` and the like).

Both are about numbers of which the reader's counter finds that they have digits (`Counted`).
These are all numbers of less than `2 ^ 31` digits (`counted_of_length`).
-/

namespace Multitouch.Grammar

/-- The text is empty or begins with a character of which `P` holds. -/
def Before (P : Char → Prop) (text : List Char) : Prop :=
  ∀ c ∈ text.head?, P c

variable {text rest : List Char}

/-! ### Numbers -/

theorem not_counted_nil : ¬ Counted [] := by decide

/-- As long as the counter's bits are not used up, it counts what there is. -/
theorem counted_of_length {digits : List Char} (hne : digits ≠ []) (h : digits.length < 2 ^ 31) :
    Counted digits := by
  have hpos := List.length_pos_iff.mpr hne
  rw [Counted, Int32.lt_iff_toInt_lt, Int32.toInt_ofNat_of_lt h]
  exact Int.natCast_pos.mpr hpos

/-- The text has no run of `2 ^ 31` digits. -/
def ShortRuns (text : List Char) : Prop :=
  ∀ digits, digits <:+: text → (∀ c ∈ digits, c.isDigit = true) → digits.length < 2 ^ 31

theorem ShortRuns.counted {digits : List Char} (h : ShortRuns text) (hi : digits <:+: text)
    (hne : digits ≠ []) (hdigit : ∀ c ∈ digits, c.isDigit = true) : Counted digits :=
  counted_of_length hne (h digits hi hdigit)

theorem number_sound {n : Nat} (h : number text = .ok (some n, rest)) :
    ∃ digits, text = digits ++ rest ∧ Numeral Counted digits n := by
  simp only [number] at h
  split at h
  · next hlt =>
      split at h
      · next hcounted =>
          cases h
          have hne : text.takeWhile Char.isDigit ≠ [] := fun hnil =>
            not_counted_nil (hnil ▸ hcounted)
          exact ⟨_, (List.takeWhile_append_dropWhile).symm, hne,
            List.all_eq_true.mp List.all_takeWhile, rfl, hlt, hcounted⟩
      · cases h
  · cases h

section Digits

variable {digits : List Char} (hdigits : ∀ c ∈ digits, c.isDigit = true)
  (hrest : Before (fun c => c.isDigit = false) rest)
include hdigits hrest

theorem takeWhile_digits : (digits ++ rest).takeWhile Char.isDigit = digits := by
  rw [List.takeWhile_append_of_pos hdigits]
  cases rest with
  | nil => simp
  | cons c rest =>
      have hc := hrest c rfl
      simp [hc]

theorem dropWhile_digits : (digits ++ rest).dropWhile Char.isDigit = rest := by
  rw [List.dropWhile_append_of_pos hdigits]
  cases rest with
  | nil => rfl
  | cons c rest =>
      have hc := hrest c rfl
      simp [hc]

end Digits

theorem number_append {digits : List Char} {n : Nat} (h : Numeral Counted digits n)
    (hrest : Before (fun c => c.isDigit = false) rest) :
    number (digits ++ rest) = .ok (some n, rest) := by
  simp only [number, takeWhile_digits h.isDigit hrest, dropWhile_digits h.isDigit hrest,
    h.value_eq, if_pos h.lt, if_pos h.fits]

theorem before_of_head {P : Char → Prop} {c : Char} (h : P c) : Before P (c :: rest) := by
  rintro _ ⟨⟩
  exact h

/-! ### Repetitions -/

theorem bounds_sound {opening : List Char} {r : Repetition}
    (h : bounds opening text = .ok (r, rest)) :
    ∃ m, '{' :: text = m ++ rest ∧ Repeats Counted m r := by
  unfold bounds at h
  split at h
  · cases h
  · cases h
  · next hn =>
      cases h
      obtain ⟨s, rfl, hs⟩ := number_sound hn
      exact ⟨_, by simp, .exactly hs⟩
  · next hn =>
      obtain ⟨s, rfl, hs⟩ := number_sound hn
      split at h
      · cases h
      · cases h
      · next hm =>
          split at h
          · next hle =>
              cases h
              obtain ⟨t, rfl, ht⟩ := number_sound hm
              exact ⟨_, by simp, .between hs ht hle⟩
          · cases h
      · cases h
  · cases h

theorem repetition_sound {r : Repetition} (h : repetition text = .ok (r, rest)) :
    ∃ m, text = m ++ rest ∧ Repeats Counted m r := by
  unfold repetition at h
  split at h
  · cases h
    exact ⟨['+'], rfl, .atLeastOnce⟩
  · cases h
    exact ⟨['*'], rfl, .any⟩
  · cases h
    exact ⟨['?'], rfl, .optional⟩
  · exact bounds_sound h
  · cases h
    exact ⟨[], rfl, .once⟩

theorem repetition_append {m : List Char} {r : Repetition} (h : Repeats Counted m r)
    (hrest : Before (fun c => c ∉ ['+', '*', '?', '{']) rest) :
    repetition (m ++ rest) = .ok (r, rest) := by
  cases h with
  | once =>
      cases rest with
      | nil => rfl
      | cons c rest =>
          have hc := hrest c rfl
          simp only [List.mem_cons, List.not_mem_nil, or_false, not_or] at hc
          simp [repetition, hc]
  | atLeastOnce => rfl
  | any => rfl
  | optional => rfl
  | exactly hn =>
      simp only [List.cons_append, List.append_assoc, List.nil_append, repetition, bounds]
      rw [number_append hn (before_of_head rfl)]
      rfl
  | between hm hn hle =>
      simp only [List.cons_append, List.append_assoc, List.nil_append, repetition, bounds]
      rw [number_append hm (before_of_head rfl)]
      simp only []
      rw [number_append hn (before_of_head rfl)]
      simp [hle]

/-! ### Targets -/

theorem trailing_backslash (t : List Char) : trailing (t ++ ['\\']) = trailing t + 1 := by
  simp [trailing]

theorem trailing_other {c : Char} (h : c ≠ '\\') (t : List Char) : trailing (t ++ [c]) = 0 := by
  simp [trailing, h]

theorem closed_nil : Closed [] :=
  ⟨fun u v h => absurd h (by simp), rfl⟩

/-- What stands in a text with one more character is in the text, or is that character. -/
theorem eq_append_cons {t u v : List Char} {c d : Char} (h : t ++ [c] = u ++ d :: v) :
    u = t ∧ c = d ∨ ∃ w, t = u ++ d :: w := by
  rcases List.eq_nil_or_concat v with rfl | ⟨w, x, rfl⟩
  · obtain ⟨rfl, hc⟩ := List.append_inj' h rfl
    cases hc
    exact .inl ⟨rfl, rfl⟩
  · rw [List.concat_eq_append, ← List.cons_append, ← List.append_assoc] at h
    exact .inr ⟨w, (List.append_inj' h rfl).1⟩

/-- A character that is no slash and no backslash can be added. -/
theorem Closed.concat {t : List Char} {c : Char} (h : Closed t) (hs : c ≠ '/') (hb : c ≠ '\\') :
    Closed (t ++ [c]) := by
  refine ⟨fun u v hu => ?_, by rw [trailing_other hb]⟩
  rcases eq_append_cons hu with ⟨-, rfl⟩ | ⟨w, hw⟩
  · exact absurd rfl hs
  · exact h.slash u w hw

/-- Any character can be added with a backslash before it. -/
theorem Closed.escape {t : List Char} (h : Closed t) (c : Char) :
    Closed (t ++ ['\\', c]) := by
  rw [show t ++ ['\\', c] = (t ++ ['\\']) ++ [c] by simp]
  have hodd : trailing (t ++ ['\\']) % 2 = 1 := by
    have := h.even
    rw [trailing_backslash]
    omega
  refine ⟨fun u v hu => ?_, ?_⟩
  · rcases eq_append_cons hu with ⟨rfl, -⟩ | ⟨w, hw⟩
    · exact hodd
    · rcases eq_append_cons hw with ⟨-, hc⟩ | ⟨w, hw⟩
      · cases hc
      · exact h.slash u w hw
  · by_cases hc : c = '\\'
    · rw [hc, trailing_backslash]
      omega
    · rw [trailing_other hc]

theorem closeTarget_sound {seen t : List Char} (hs : Closed seen.reverse)
    (h : closeTarget seen text = some (t, rest)) :
    seen.reverse ++ text = t ++ '/' :: rest ∧ Closed t := by
  fun_induction closeTarget seen text with
  | case1 => cases h
  | case2 seen rest =>
      cases h
      exact ⟨rfl, hs⟩
  | case3 seen c text ih =>
      have hesc := hs.escape c
      simpa using ih (by simpa using hesc) h
  | case4 seen c text hc hb ih =>
      cases text with
      | nil => cases h
      | cons d text =>
          have hc' : c ≠ '\\' := fun e => hb d text e rfl
          have hadd := hs.concat hc hc'
          simpa using ih (by simpa using hadd) h

theorem closeTarget_append {seen u : List Char} (hs : Closed seen.reverse)
    (hu : Closed (seen.reverse ++ u)) :
    closeTarget seen (u ++ '/' :: rest) = some (seen.reverse ++ u, rest) := by
  generalize ht : u ++ '/' :: rest = text
  fun_induction closeTarget seen text generalizing u with
  | case1 => simp at ht
  | case2 seen text =>
      cases u with
      | nil =>
          cases ht
          simp
      | cons c u =>
          cases ht
          -- a slash in the text comes after an odd number of backslashes, but this one does not
          have hodd := hu.slash seen.reverse u rfl
          have heven := hs.even
          omega
  | case3 seen c text ih =>
      have hesc := hs.escape c
      rcases u with _ | ⟨d, _ | ⟨e, u⟩⟩
      · cases ht
      · cases ht
        -- the backslash would be the last character, and keep the slash from closing
        have heven := hu.even
        have hodd := hs.even
        rw [trailing_backslash] at heven
        omega
      · cases ht
        have := ih (u := u) (by simpa using hesc) (by simpa using hu) rfl
        simpa using this
  | case4 seen c text hc hb ih =>
      cases u with
      | nil =>
          cases ht
          exact absurd rfl hc
      | cons d u =>
          cases ht
          have hc' : c ≠ '\\' := fun e => by
            cases u with
            | nil => exact hb '/' rest e rfl
            | cons d u => exact hb d _ e rfl
          have hadd := hs.concat hc hc'
          have := ih (u := u) (by simpa using hadd) (by simpa using hu) rfl
          simpa using this

theorem target_sound {t : String} (h : target text = .ok (t, rest)) :
    ∃ s, text = s ++ rest ∧ Targets s t := by
  unfold target at h
  split at h
  · split at h
    · next hc =>
        cases h
        obtain ⟨ht, hclosed⟩ := closeTarget_sound (by exact closed_nil) hc
        exact ⟨_, by simpa using ht, .slashes hclosed⟩
    · cases h
  · cases h
    exact ⟨[], rfl, .any⟩

theorem target_append {s : List Char} {t : String} (h : Targets s t)
    (hrest : Before (fun c => c ≠ '/') rest) : target (s ++ rest) = .ok (t, rest) := by
  cases h with
  | any =>
      cases rest with
      | nil => rfl
      | cons c rest =>
          have hc := hrest c rfl
          simp [target, hc]
  | @slashes t ht =>
      simp only [List.cons_append, List.append_assoc, List.nil_append, target]
      have hclose : closeTarget [] (t ++ '/' :: rest) = some (t, rest) :=
        closeTarget_append closed_nil ht
      rw [hclose]

/-! ### Actions -/

theorem slot_sound {n : Nat} (h : slot text = .ok (n, rest)) :
    ∃ digits, text = digits ++ rest ∧ Numeral Counted digits n ∧ 1 ≤ n := by
  unfold slot at h
  split at h
  · cases h
  · cases h
  · cases h
  · next hzero hn =>
      cases h
      obtain ⟨digits, ht, hd⟩ := number_sound hn
      exact ⟨digits, ht, hd, Nat.one_le_iff_ne_zero.mpr fun e => hzero (e ▸ rfl)⟩

theorem slot_append {digits : List Char} {n : Nat} (h : Numeral Counted digits n) (hn : 1 ≤ n)
    (hrest : Before (fun c => c.isDigit = false) rest) : slot (digits ++ rest) = .ok (n, rest) := by
  obtain ⟨k, rfl⟩ : ∃ k, n = k + 1 := ⟨n - 1, by omega⟩
  rw [slot, number_append h hrest]
  rfl

theorem action_sound {a : Action} (h : action text = .ok (a, rest)) :
    ∃ s, text = s ++ rest ∧ Acts Counted s a := by
  unfold action at h
  split at h
  · cases h
  · next c text =>
      split at h
      · cases h
      · next phase hphase =>
          split at h
          · cases h
          · next n left hslot =>
              split at h
              · cases h
              · next htarget =>
                  split at h
                  · cases h
                  · next hrepetition =>
                      cases h
                      obtain ⟨digits, rfl, hn, hpos⟩ := slot_sound hslot
                      obtain ⟨s, rfl, ht⟩ := target_sound htarget
                      obtain ⟨m, rfl, hr⟩ := repetition_sound hrepetition
                      rw [Phase.eq_letter_of_ofLetter? hphase]
                      exact ⟨_, by simp, .mk hn hpos ht hr⟩

/-- The characters that an item may be followed by. -/
def Follows (text : List Char) : Prop :=
  Before (fun c => c ∈ ['|', ')', '(', 'd', 'm', 'u']) text

theorem Before.imp {P Q : Char → Prop} (h : Before P text) (hPQ : ∀ c, P c → Q c) :
    Before Q text :=
  fun c hc => hPQ c (h c hc)

/-- What may follow an item is no more of its repetition. -/
theorem Follows.repetition (h : Follows text) :
    Before (fun c => c ∉ ['+', '*', '?', '{']) text := by
  refine h.imp fun c hc => ?_
  simp only [List.mem_cons, List.not_mem_nil, or_false] at hc
  rcases hc with rfl | rfl | rfl | rfl | rfl | rfl <;> decide

/-- A written repetition and what follows do not continue a target or a number. -/
theorem Repeats.before {P : List Char → Prop} {m : List Char} {r : Repetition} (h : Repeats P m r)
    (hrest : Follows rest) : Before (fun c => c ≠ '/' ∧ c.isDigit = false) (m ++ rest) := by
  cases h with
  | once =>
      refine hrest.imp fun c hc => ?_
      simp only [List.mem_cons, List.not_mem_nil, or_false] at hc
      rcases hc with rfl | rfl | rfl | rfl | rfl | rfl <;> decide
  | _ => exact before_of_head (by decide)

theorem Targets.before {s : List Char} {t : String} (h : Targets s t)
    (hrest : Before (fun c => c ≠ '/' ∧ c.isDigit = false) rest) :
    Before (fun c => c.isDigit = false) (s ++ rest) := by
  cases h with
  | any => exact hrest.imp fun _ hc => hc.2
  | slashes => exact before_of_head (by decide)

theorem action_append {s : List Char} {a : Action} (h : Acts Counted s a) (hrest : Follows rest) :
    action (s ++ rest) = .ok (a, rest) := by
  obtain ⟨hn, hpos, ht, hr⟩ := h
  have hafter := hr.before hrest
  simp only [List.cons_append, List.append_assoc, action, Phase.ofLetter?_letter]
  rw [slot_append hn hpos (ht.before hafter)]
  simp only []
  rw [target_append ht (hafter.imp fun _ hc => hc.1)]
  simp only []
  rw [repetition_append hr hrest.repetition]

end Multitouch.Grammar
