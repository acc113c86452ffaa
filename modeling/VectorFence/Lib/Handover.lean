import Mathlib.Tactic

/-! A ring of `n` cells between a producer and a consumer. A cell is the producer's (`none`) or
    holds something for the consumer; the items lie in a row from the consumer's cell on, and the
    producer goes on behind the last.

        ┌───┬───┬───┬───┬───┐      consumer: i
        │   │ x │ y │ z │   │      producer: slot n i 3
        └───┴───┴───┴───┴───┘
              i           ↑                                  -/

namespace Handover

variable {α : Type*} {n i : ℕ} {x y : α} {l : List α} {cell : ℕ → Option α}

/-- The cell `k` cells behind `i`. -/
def slot (n i k : ℕ) : ℕ := (i + k) % n

theorem slot_zero (h : i < n) : slot n i 0 = i := Nat.mod_eq_of_lt h

theorem slot_self (h : i < n) : slot n i n = i := by rw [slot, Nat.add_mod_right, Nat.mod_eq_of_lt h]

theorem slot_lt (h : i < n) (k : ℕ) : slot n i k < n := Nat.mod_lt _ (by omega)

theorem slot_slot (n i j k : ℕ) : slot n (slot n i j) k = slot n i (j + k) := by
  rw [slot, slot, slot, Nat.mod_add_mod, Nat.add_assoc]

theorem slot_inj {j k : ℕ} (hj : j < n) (hk : k < n) (h : slot n i j = slot n i k) : j = k :=
  Nat.ModEq.eq_of_lt_of_lt (Nat.ModEq.add_left_cancel' i h) hj hk

/-- The items `l` lie in the cells from `i` on. -/
structure Holds (n : ℕ) (cell : ℕ → Option α) (i : ℕ) (l : List α) : Prop where
  lt : i < n
  le : l.length ≤ n
  get : ∀ k < n, cell (slot n i k) = l[k]?

theorem holds_nil (h : 0 < n) (hcell : ∀ k < n, cell k = none) : Holds n cell 0 [] :=
  ⟨h, Nat.zero_le _, fun k _ => by rw [List.getElem?_nil]; exact hcell _ (slot_lt h k)⟩

theorem Holds.head (h : Holds n cell i l) : cell i = l.head? := by
  have hget := h.get 0 (Nat.zero_lt_of_lt h.lt)
  rwa [slot_zero h.lt, ← List.head?_eq_getElem?] at hget

/-- The cell behind the items is the producer's unless the ring is full. -/
theorem Holds.last (h : Holds n cell i l) : cell (slot n i l.length) = none ↔ l.length < n := by
  constructor
  · intro hnone
    by_contra hfull
    have hlen : l.length = n := by have := h.le; omega
    rw [hlen, slot_self h.lt, h.head, List.head?_eq_none_iff] at hnone
    rw [hnone, List.length_nil] at hlen
    have := h.lt
    omega
  · intro hlt
    rw [h.get _ hlt]
    exact List.getElem?_eq_none le_rfl

theorem Holds.put (h : Holds n cell i l) (hlt : l.length < n) (x : α) :
    Holds n (Function.update cell (slot n i l.length) (some x)) i (l ++ [x]) := by
  refine ⟨h.lt, by rw [List.length_append, List.length_singleton]; omega, fun k hk => ?_⟩
  rcases eq_or_ne k l.length with rfl | hne
  · rw [Function.update_self, List.getElem?_concat_length]
  · rw [Function.update_of_ne fun heq => hne (slot_inj hk hlt heq), h.get k hk]
    rcases Nat.lt_or_ge k l.length with hin | hout
    · rw [List.getElem?_append_left hin]
    · rw [List.getElem?_eq_none hout, List.getElem?_eq_none]
      rw [List.length_append, List.length_singleton]
      omega

theorem Holds.take (h : Holds n cell i (x :: l)) :
    Holds n (Function.update cell i none) (slot n i 1) l := by
  have hle := h.le
  rw [List.length_cons] at hle
  refine ⟨slot_lt h.lt 1, by omega, fun k hk => ?_⟩
  rw [slot_slot, Nat.add_comm]
  rcases eq_or_ne (k + 1) n with heq | hne
  · rw [heq, slot_self h.lt, Function.update_self, List.getElem?_eq_none (by omega)]
  · have hother : slot n i (k + 1) ≠ i := fun heq => by
      have := slot_inj (i := i) (j := k + 1) (k := 0) (by omega) (by omega)
        (heq.trans (slot_zero h.lt).symm)
      omega
    rw [Function.update_of_ne hother, h.get _ (by omega), List.getElem?_cons_succ]

/-- The item that comes next is replaced. -/
theorem Holds.replace (h : Holds n cell i (x :: l)) (y : α) :
    Holds n (Function.update cell i (some y)) i (y :: l) := by
  refine ⟨h.lt, h.le, fun k hk => ?_⟩
  cases k with
  | zero => rw [slot_zero h.lt, Function.update_self, List.getElem?_cons_zero]
  | succ k =>
    have hother : slot n i (k + 1) ≠ i := fun heq => by
      have := slot_inj (i := i) (j := k + 1) (k := 0) hk (by omega) (heq.trans (slot_zero h.lt).symm)
      omega
    rw [Function.update_of_ne hother, h.get _ hk, List.getElem?_cons_succ, List.getElem?_cons_succ]

/-! ### A ring in which only the indices say what is in it -/

/-- The items `l` lie in `mem` from `i` on. -/
structure Row (n : ℕ) (mem : ℕ → α) (i : ℕ) (l : List α) : Prop where
  lt : i < n
  le : l.length ≤ n
  get : ∀ k (h : k < l.length), mem (slot n i k) = l[k]

variable {mem : ℕ → α}

theorem Row.put (h : Row n mem i l) (hlt : l.length < n) (x : α) :
    Row n (Function.update mem (slot n i l.length) x) i (l ++ [x]) := by
  refine ⟨h.lt, by rw [List.length_append, List.length_singleton]; omega, fun k hk => ?_⟩
  rw [List.length_append, List.length_singleton] at hk
  rcases Nat.lt_or_eq_of_le (Nat.le_of_lt_succ hk) with hin | rfl
  · have hne : slot n i k ≠ slot n i l.length := fun heq => by
      have := slot_inj (by omega) hlt heq
      omega
    rw [Function.update_of_ne hne, List.getElem_append_left hin, h.get k hin]
  · rw [Function.update_self, List.getElem_concat_length rfl]

theorem Row.take (h : Row n mem i (x :: l)) : mem i = x ∧ Row n mem (slot n i 1) l := by
  have hle := h.le
  rw [List.length_cons] at hle
  refine ⟨?_, slot_lt h.lt 1, by omega, fun k hk => ?_⟩
  · have hget := h.get 0 (by simp)
    rwa [slot_zero h.lt] at hget
  · rw [slot_slot, Nat.add_comm, h.get (k + 1) (by simpa using hk), List.getElem_cons_succ]

end Handover
