import Mathlib.Tactic

/-! A ring of `N` slots that keeps the last `N` records of a growing history.

    `w` is the slot the next record goes to. The record written `a` steps ago sits `a + 1` slots
    behind `w`, which is `back N w (a + 1)`; a reader that starts at `w` and steps back one slot at a
    time therefore meets the records newest first. `Holds` ties the slots to the list of records
    (newest first), and `Holds.push` is the refinement of `push`, the abstract append. -/

namespace Ring

variable {α : Type*} {N w : ℕ}

/-- The slot `a` steps behind `w` (for `a ≤ N`). -/
def back (N w a : ℕ) : ℕ := if a ≤ w then w - a else w + N - a

/-- The slot after `w`. -/
def succ (N w : ℕ) : ℕ := if w + 1 = N then 0 else w + 1

/-- Append to a history that keeps its last `N` records, newest first. -/
def push (N : ℕ) (e : α) (l : List α) : List α := (e :: l).take N

theorem back_zero : back N w 0 = w := by rw [back, if_pos (Nat.zero_le _), Nat.sub_zero]

theorem back_of_le {a : ℕ} (h : a ≤ w) : back N w a = w - a := if_pos h

theorem back_of_lt {a : ℕ} (h : w < a) : back N w a = w + N - a := if_neg (by omega)

theorem back_lt (hw : w < N) {a : ℕ} (ha : a ≤ N) : back N w a < N := by
  unfold back; split_ifs <;> omega

/-- One step back from the slot `a` steps behind `w`. -/
theorem back_step (hw : w < N) {a : ℕ} (ha : a < N) :
    back N w (a + 1) = if back N w a = 0 then N - 1 else back N w a - 1 := by
  unfold back; split_ifs <;> omega

/-- Going back up `n - 1` slots without passing the seam between slot 0 and slot `N - 1`. -/
theorem back_add {a n : ℕ} (hn : 1 ≤ n) (ha : a + n ≤ N) (hs : w ≤ a ∨ a + n ≤ w) :
    back N w (a + n) + n - 1 = back N w (a + 1) := by
  unfold back; split_ifs <;> omega

/-- On a stretch with the seam inside, the same `n - 1` slots lead past the end. -/
theorem le_back_add {a n : ℕ} (h0 : a < w) (h1 : w < a + n) :
    N ≤ back N w (a + n) + n - 1 ∧ back N w (a + 1) < n - 1 := by
  unfold back; split_ifs <;> omega

theorem back_eq_self {a : ℕ} (ha : a ≤ N) (h : back N w a = w) : a = 0 ∨ a = N := by
  unfold back at h; split_ifs at h <;> omega

/-- Every slot is behind `w` by some number of steps. -/
theorem exists_back (hw : w < N) {k : ℕ} (hk : k < N) : ∃ a, a < N ∧ back N w (a + 1) = k := by
  by_cases h : k < w
  · exact ⟨w - k - 1, by omega, by rw [back_of_le (by omega)]; omega⟩
  · exact ⟨w + N - k - 1, by omega, by rw [back_of_lt (by omega)]; omega⟩

theorem succ_lt (hw : w < N) : succ N w < N := by unfold succ; split_ifs <;> omega

theorem back_succ {a : ℕ} (ha : a < N) :
    back N (succ N w) (a + 1) = back N w a := by
  unfold back succ; split_ifs <;> omega

/-- The slots hold the history `l`: `w` records while the ring has never been full, `N` after. -/
structure Holds (N : ℕ) (slot : ℕ → α) (w : ℕ) (l : List α) : Prop where
  lt : w < N
  len : l.length = w ∨ l.length = N
  get : ∀ a (h : a < l.length), slot (back N w (a + 1)) = l[a]

theorem Holds.le {slot : ℕ → α} {l : List α} (h : Holds N slot w l) : l.length ≤ N := by
  have := h.lt
  rcases h.len with h | h <;> omega

theorem holds_nil {slot : ℕ → α} (hN : 0 < N) : Holds N slot 0 ([] : List α) :=
  ⟨hN, Or.inl rfl, fun a ha => absurd ha (by simp)⟩

theorem length_push (e : α) (l : List α) : (push N e l).length = min N (l.length + 1) := by
  rw [push, List.length_take, List.length_cons]

/-- Only the slots behind `w` matter. -/
theorem Holds.congr {slot slot' : ℕ → α} {l : List α} (h : Holds N slot w l)
    (heq : ∀ a, a < l.length → slot' (back N w (a + 1)) = slot (back N w (a + 1))) :
    Holds N slot' w l :=
  ⟨h.lt, h.len, fun a ha => by rw [heq a ha]; exact h.get a ha⟩

/-- Storing a record at `w` and moving on to the next slot appends it to the history. -/
theorem Holds.push {slot slot' : ℕ → α} {l : List α} {e : α} (h : Holds N slot w l)
    (hw : slot' w = e) (hframe : ∀ k, k < N → k ≠ w → slot' k = slot k) :
    Holds N slot' (succ N w) (push N e l) := by
  have hlt := h.lt
  have hle := h.le
  refine ⟨succ_lt hlt, ?_, ?_⟩
  · rw [length_push]
    rcases h.len with hl | hl
    · rw [hl, succ]; split_ifs with hs <;> omega
    · exact Or.inr (by omega)
  · intro a ha
    rw [length_push] at ha
    simp only [Ring.push, List.getElem_take]
    rw [back_succ (by omega)]
    cases a with
    | zero => rw [back_zero, hw, List.getElem_cons_zero]
    | succ a =>
      have hne : back N w (a + 1) ≠ w := by
        intro hb
        rcases back_eq_self (by omega) hb with h0 | h0 <;> omega
      rw [hframe _ (back_lt hlt (by omega)) hne, List.getElem_cons_succ]
      exact h.get a (by omega)

end Ring
