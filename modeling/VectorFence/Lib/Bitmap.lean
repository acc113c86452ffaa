import Mathlib.Tactic

/-! Sets of numbers below 64 in two levels: `tbl` has a byte for each eight numbers, `grp` a bit for
    each of these bytes that is not 0. The smallest number is found with two looks into a table of
    lowest bits.

        grp  00000110              tbl 1  00001000  ─▶ 8 + 3
                  └─ lowest: 1     tbl 2  00000001  ─▶ 16          -/

namespace Bitmap

def bit (b : UInt8) (k : ℕ) : Bool := b.toNat.testBit k

/-- The byte with one bit. -/
def single (k : ℕ) : UInt8 := 1 <<< UInt8.ofNat k

theorem bit_or (a b : UInt8) (k : ℕ) : bit (a ||| b) k = (bit a k || bit b k) := by
  rw [bit, UInt8.toNat_or, Nat.testBit_or]
  rfl

theorem bit_and (a b : UInt8) (k : ℕ) : bit (a &&& b) k = (bit a k && bit b k) := by
  rw [bit, UInt8.toNat_and, Nat.testBit_and]
  rfl

theorem bit_single {j k : ℕ} (hj : j < 8) (hk : k < 8) : bit (single j) k = decide (k = j) := by
  have h : ∀ j k : Fin 8, bit (single j) k = decide ((k : ℕ) = j) := by decide +kernel
  exact h ⟨j, hj⟩ ⟨k, hk⟩

theorem bit_not_single {j k : ℕ} (hj : j < 8) (hk : k < 8) :
    bit (~~~(single j)) k = decide (k ≠ j) := by
  have h : ∀ j k : Fin 8, bit (~~~(single j)) k = decide ((k : ℕ) ≠ j) := by decide +kernel
  exact h ⟨j, hj⟩ ⟨k, hk⟩

theorem ne_zero_iff (b : UInt8) : b ≠ 0 ↔ ∃ k < 8, bit b k = true := by
  constructor
  · intro h
    by_contra hnone
    refine h (UInt8.toNat_inj.mp (Nat.eq_of_testBit_eq fun k => ?_))
    rcases Nat.lt_or_ge k 8 with hk | hk
    · have hbit : bit b k = false := Bool.eq_false_of_not_eq_true fun hb => hnone ⟨k, hk, hb⟩
      rw [bit] at hbit
      simpa using hbit
    · have hlt : b.toNat < 2 ^ k := lt_of_lt_of_le b.toNat_lt (Nat.pow_le_pow_right (by decide) hk)
      simp [Nat.testBit_lt_two_pow hlt]
  · rintro ⟨k, -, hk⟩ rfl
    simp [bit] at hk

end Bitmap

/-- A set of numbers below 64. -/
structure Bitmap where
  grp : UInt8
  tbl : ℕ → UInt8

namespace Bitmap

def empty : Bitmap := ⟨0, fun _ => 0⟩

def insert (m : Bitmap) (p : ℕ) : Bitmap :=
  { grp := m.grp ||| single (p / 8)
    tbl := Function.update m.tbl (p / 8) (m.tbl (p / 8) ||| single (p % 8)) }

def remove (m : Bitmap) (p : ℕ) : Bitmap :=
  let b := m.tbl (p / 8) &&& ~~~(single (p % 8))
  { grp := if b = 0 then m.grp &&& ~~~(single (p / 8)) else m.grp
    tbl := Function.update m.tbl (p / 8) b }

def least (unmap : UInt8 → ℕ) (m : Bitmap) : ℕ := unmap m.grp * 8 + unmap (m.tbl (unmap m.grp))

/-- The number is in the set. -/
def Mem (m : Bitmap) (p : ℕ) : Prop := bit (m.tbl (p / 8)) (p % 8) = true

instance (m : Bitmap) (p : ℕ) : Decidable (m.Mem p) := inferInstanceAs (Decidable (_ = true))

/-- The bits of `grp` are those of the bytes that are not 0. -/
def Wf (m : Bitmap) : Prop := ∀ y < 8, bit m.grp y = true ↔ m.tbl y ≠ 0

/-- A table of the lowest bits. -/
def Lowest (unmap : UInt8 → ℕ) : Prop :=
  ∀ b ≠ 0, unmap b < 8 ∧ bit b (unmap b) = true ∧ ∀ k < unmap b, bit b k = false

variable {m : Bitmap} {p q : ℕ}

theorem wf_empty : empty.Wf := fun y _ => by simp [empty, bit]

theorem not_mem_empty : ¬empty.Mem p := by simp [empty, Mem, bit]

theorem mem_insert (m : Bitmap) (p q : ℕ) : (m.insert p).Mem q ↔ q = p ∨ m.Mem q := by
  rw [Mem, insert]
  rcases eq_or_ne (q / 8) (p / 8) with hy | hy
  · simp only [hy, Function.update_self]
    rw [bit_or, bit_single (Nat.mod_lt _ (by decide)) (Nat.mod_lt _ (by decide)), Bool.or_eq_true,
      decide_eq_true_eq, Mem, hy,
      or_comm]
    refine or_congr_left ⟨fun h => ?_, fun h => by rw [h]⟩
    omega
  · simp only [Function.update_of_ne hy]
    refine ⟨Or.inr, fun h => h.resolve_left ?_⟩
    rintro rfl
    exact hy rfl

theorem mem_remove (m : Bitmap) (p q : ℕ) : (m.remove p).Mem q ↔ q ≠ p ∧ m.Mem q := by
  rw [Mem, remove]
  rcases eq_or_ne (q / 8) (p / 8) with hy | hy
  · simp only [hy, Function.update_self]
    rw [bit_and, bit_not_single (Nat.mod_lt _ (by decide)) (Nat.mod_lt _ (by decide)),
      Bool.and_eq_true, decide_eq_true_eq, Mem,
      hy, and_comm]
    refine and_congr_left fun _ => not_congr ⟨fun h => ?_, fun h => by rw [h]⟩
    omega
  · simp only [Function.update_of_ne hy]
    refine ⟨fun h => ⟨?_, h⟩, And.right⟩
    rintro rfl
    exact hy rfl

theorem grp_remove (h : m.grp = 0) (p : ℕ) : (m.remove p).grp = 0 := by
  rw [remove]
  split_ifs
  · simp [h]
  · exact h

theorem Wf.insert (h : m.Wf) (hp : p < 64) : (m.insert p).Wf := by
  intro y hy
  have hrow : p / 8 < 8 := by omega
  simp only [Bitmap.insert]
  rw [bit_or, bit_single hrow hy, Bool.or_eq_true, decide_eq_true_eq]
  rcases eq_or_ne y (p / 8) with rfl | hne
  · rw [Function.update_self, ne_zero_iff]
    refine iff_of_true (.inr rfl) ⟨p % 8, Nat.mod_lt _ (by decide), ?_⟩
    rw [bit_or, bit_single (Nat.mod_lt _ (by decide)) (Nat.mod_lt _ (by decide))]
    simp
  · rw [Function.update_of_ne hne, ← h y hy]
    simp [hne]

theorem Wf.remove (h : m.Wf) (hp : p < 64) : (m.remove p).Wf := by
  intro y hy
  have hrow : p / 8 < 8 := by omega
  simp only [Bitmap.remove]
  rcases eq_or_ne y (p / 8) with rfl | hne
  · rw [Function.update_self]
    split_ifs with hzero
    · rw [bit_and, bit_not_single hrow hrow]
      simp [hzero]
    · refine iff_of_true ((h _ hrow).mpr fun hb => hzero ?_) hzero
      rw [hb]
      exact UInt8.zero_and
  · rw [Function.update_of_ne hne, ← h y hy]
    split_ifs with hzero
    · rw [bit_and, bit_not_single hrow hy]
      simp [hne]
    · rfl

theorem mem_foldl_insert (m : Bitmap) (l : List ℕ) (q : ℕ) :
    (l.foldl Bitmap.insert m).Mem q ↔ q ∈ l ∨ m.Mem q := by
  induction l generalizing m with
  | nil => simp
  | cons p l ih => rw [List.foldl_cons, ih, mem_insert, List.mem_cons, ← or_assoc, or_comm (a := q ∈ l)]

theorem Wf.foldl_insert (h : m.Wf) {l : List ℕ} (hl : ∀ p ∈ l, p < 64) :
    (l.foldl Bitmap.insert m).Wf := by
  induction l generalizing m with
  | nil => exact h
  | cons p l ih =>
    rw [List.forall_mem_cons] at hl
    exact ih (h.insert hl.1) hl.2

/-- `grp` is 0 exactly when the set is empty. -/
theorem Wf.grp_ne_zero_iff (h : m.Wf) : m.grp ≠ 0 ↔ ∃ p < 64, m.Mem p := by
  rw [ne_zero_iff]
  constructor
  · rintro ⟨y, hy, hgrp⟩
    obtain ⟨x, hx, hbit⟩ := (ne_zero_iff _).mp ((h y hy).mp hgrp)
    refine ⟨y * 8 + x, by omega, ?_⟩
    rw [Mem, (by omega : (y * 8 + x) / 8 = y), (by omega : (y * 8 + x) % 8 = x)]
    exact hbit
  · rintro ⟨p, hp, hmem⟩
    exact ⟨p / 8, by omega, (h _ (by omega)).mpr
      ((ne_zero_iff _).mpr ⟨p % 8, Nat.mod_lt _ (by decide), hmem⟩)⟩

/-- The smallest number of the set. -/
theorem Wf.least (h : m.Wf) {unmap : UInt8 → ℕ} (hunmap : Lowest unmap) (hgrp : m.grp ≠ 0) :
    m.least unmap < 64 ∧ m.Mem (m.least unmap) ∧ ∀ p < 64, m.Mem p → m.least unmap ≤ p := by
  obtain ⟨hy, hbit, hlow⟩ := hunmap _ hgrp
  obtain ⟨hx, hbit', hlow'⟩ := hunmap _ ((h _ hy).mp hbit)
  refine ⟨by rw [Bitmap.least]; omega, ?_, fun p hp hmem => ?_⟩
  · rw [Mem, Bitmap.least, (by omega : (unmap m.grp * 8 +
      unmap (m.tbl (unmap m.grp))) / 8 = unmap m.grp),
      (by omega : (unmap m.grp * 8 + unmap (m.tbl (unmap m.grp))) % 8 = unmap (m.tbl (unmap m.grp)))]
    exact hbit'
  · have hrow : unmap m.grp ≤ p / 8 := by
      by_contra hlt
      have hzero : m.tbl (p / 8) ≠ 0 := (ne_zero_iff _).mpr ⟨p % 8, Nat.mod_lt _ (by decide), hmem⟩
      rw [← h _ (by omega), hlow _ (by omega)] at hzero
      simp at hzero
    rw [Bitmap.least]
    rcases Nat.lt_or_eq_of_le hrow with hlt | heq
    · omega
    · have hcol : unmap (m.tbl (unmap m.grp)) ≤ p % 8 := by
        by_contra hlt
        have hzero := hlow' (p % 8) (by omega)
        rw [Mem, ← heq, hzero] at hmem
        simp at hmem
      omega

end Bitmap
