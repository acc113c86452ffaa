import Mathlib.Data.List.Sort
import Mathlib.Tactic

/-! Timers as a list of differences: an item has the time from the item before it on, the first one
    from now on.

        list   3 a   4 b   0 c   5 d
        dues   3 a   7 b   7 c  12 d         at the time 0

    The time goes on at the head of the list only, and no other item changes its due time by it. -/

namespace Delta

variable {α : Type*}

/-- The items with their due times, `b` being the time now. -/
def dues : ℕ → List (ℕ × α) → List (ℕ × α)
  | _, [] => []
  | b, (d, x) :: l => (b + d, x) :: dues (b + d) l

/-- An item that is due in `m`, behind those due at that time. -/
def place (m : ℕ) (x : α) : List (ℕ × α) → List (ℕ × α)
  | [] => [(m, x)]
  | (d, y) :: l => if d > m then (m, x) :: (d - m, y) :: l else (d, y) :: place (m - d) x l

/-- The next item gets the time `d` of one that goes. -/
def delay (d : ℕ) : List (ℕ × α) → List (ℕ × α)
  | [] => []
  | (d', y) :: l => (d' + d, y) :: l

/-- Without the first item that is meant. -/
def cancel (p : α → Bool) : List (ℕ × α) → List (ℕ × α)
  | [] => []
  | (d, x) :: l => if p x then delay d l else (d, x) :: cancel p l

theorem dues_place (b m : ℕ) (x : α) (l : List (ℕ × α)) :
    dues b (place m x l) = (dues b l).orderedInsert (fun p q => p.1 < q.1) (b + m, x) := by
  induction l generalizing b m with
  | nil => rfl
  | cons p l ih =>
    obtain ⟨d, y⟩ := p
    rw [place]
    split_ifs with hlt
    · rw [dues, dues, dues, List.orderedInsert_cons, if_pos (by simpa using hlt), Nat.add_assoc,
        Nat.add_sub_of_le hlt.le]
    · rw [dues, ih, dues, List.orderedInsert_cons, if_neg (by simpa using hlt), Nat.add_assoc,
        Nat.add_sub_of_le (not_lt.mp hlt)]

theorem dues_delay (b d : ℕ) (l : List (ℕ × α)) : dues b (delay d l) = dues (b + d) l := by
  cases l with
  | nil => rfl
  | cons p l =>
    obtain ⟨d', y⟩ := p
    rw [delay, dues, dues, Nat.add_assoc, Nat.add_comm d d']

theorem dues_cancel (p : α → Bool) (b : ℕ) (l : List (ℕ × α)) :
    dues b (cancel p l) = (dues b l).eraseP fun q => p q.2 := by
  induction l generalizing b with
  | nil => rfl
  | cons q l ih =>
    obtain ⟨d, x⟩ := q
    rw [cancel]
    split_ifs with hp
    · rw [dues_delay, dues]
      exact (List.eraseP_cons_of_pos (p := fun q : ℕ × α => p q.2) hp).symm
    · rw [dues, ih, dues]
      exact (List.eraseP_cons_of_neg (p := fun q : ℕ × α => p q.2) hp).symm

/-- Time that has gone is taken from the first item. -/
theorem dues_pass (b t d : ℕ) (x : α) (l : List (ℕ × α)) :
    dues (b + min t d) ((d - t, x) :: l) = dues b ((d, x) :: l) := by
  have hsum : b + min t d + (d - t) = b + d := by omega
  rw [dues, dues, hsum]

/-- What is taken out and what stays. -/
theorem perm_eraseP {β : Type*} (p : β → Bool) (l : List β) :
    ((l.find? p).toList ++ l.eraseP p).Perm l := by
  induction l with
  | nil => exact List.Perm.nil
  | cons x l ih =>
    by_cases hp : p x
    · simp [hp]
    · rw [List.find?_cons_of_neg hp, List.eraseP_cons_of_neg hp]
      exact List.perm_middle.trans (ih.cons x)

end Delta
