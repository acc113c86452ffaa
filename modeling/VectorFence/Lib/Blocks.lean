import Mathlib.Tactic

/-! A table of cells that is divided into blocks: every cell of a block holds the length of the
    block, all others hold zero. A block is found by its first cell, a gap by a search from the top.

        0 0 3 3 3 0 2 2 0      the blocks (2, 3) and (6, 2) -/

namespace Blocks

/-- The cells of a block, given by its first cell and its length. -/
def Covers (b : ℕ × ℕ) (i : ℕ) : Prop := b.1 ≤ i ∧ i < b.1 + b.2

/-- `m` marks the blocks `B` in a table of `n` cells. -/
structure Table (n : ℕ) (m : ℕ → ℕ) (B : Finset (ℕ × ℕ)) : Prop where
  pos : ∀ b ∈ B, 0 < b.2
  fits : ∀ b ∈ B, b.1 + b.2 ≤ n
  apart : ∀ b ∈ B, ∀ b' ∈ B, b ≠ b' → b.1 + b.2 ≤ b'.1 ∨ b'.1 + b'.2 ≤ b.1
  marked : ∀ b ∈ B, ∀ i, Covers b i → m i = b.2
  clear : ∀ i < n, m i ≠ 0 → ∃ b ∈ B, Covers b i

def fill (m : ℕ → ℕ) (o k v : ℕ) (i : ℕ) : ℕ := if o ≤ i ∧ i < o + k then v else m i

/-- A gap of `k` cells, `c` of which have been seen above the cells that are left. -/
def scan (m : ℕ → ℕ) (k : ℕ) : ℕ → ℕ → Option ℕ
  | 0, _ => none
  | i + 1, c =>
      let c := if m i = 0 then c + 1 else 0
      if c = k then some i else scan m k i c

variable {n : ℕ} {m : ℕ → ℕ} {B : Finset (ℕ × ℕ)}

theorem fill_in {o k i : ℕ} (v : ℕ) (h : Covers (o, k) i) : fill m o k v i = v := if_pos h

theorem fill_out {o k i : ℕ} (v : ℕ) (h : ¬Covers (o, k) i) : fill m o k v i = m i := if_neg h

/-! ### Searching -/

theorem scan_some {k i c o : ℕ} (hc : ∀ j, i ≤ j → j < i + c → m j = 0) (h : scan m k i c = some o) :
    o < i ∧ o + k ≤ i + c ∧ ∀ j, o ≤ j → j < o + k → m j = 0 := by
  induction i generalizing c with
  | zero => simp [scan] at h
  | succ i ih =>
    simp only [scan] at h
    by_cases hm : m i = 0
    · have hc' : ∀ j, i ≤ j → j < i + (c + 1) → m j = 0 := by
        intro j hij hj
        rcases Nat.eq_or_lt_of_le hij with rfl | hlt
        · exact hm
        · exact hc j hlt (by omega)
      rw [if_pos hm] at h
      split_ifs at h with hk
      · obtain rfl : i = o := by simpa using h
        exact ⟨Nat.lt_succ_self i, by omega, fun j hj hj' => hc' j hj (by omega)⟩
      · obtain ⟨hlt, hle, hfree⟩ := ih hc' h
        exact ⟨by omega, by omega, hfree⟩
    · rw [if_neg hm] at h
      split_ifs at h with hk
      · obtain rfl : i = o := by simpa using h
        exact ⟨Nat.lt_succ_self i, by omega, fun j hj hj' => by omega⟩
      · obtain ⟨hlt, hle, hfree⟩ := ih (fun j hj hj' => by omega) h
        exact ⟨by omega, by omega, hfree⟩

/-- Nothing is found only if there is no gap. -/
theorem scan_none {k i c o : ℕ} (hck : c < k) (h : scan m k i c = none) (hoi : o < i)
    (hok : o + k ≤ i + c) :
    ∃ j, o ≤ j ∧ j < o + k ∧ m j ≠ 0 := by
  induction i generalizing c with
  | zero => omega
  | succ i ih =>
    simp only [scan] at h
    by_cases hm : m i = 0
    · rw [if_pos hm] at h
      split_ifs at h with hk
      rcases Nat.lt_succ_iff_lt_or_eq.mp hoi with hlt | rfl
      · exact ih (by omega) h hlt (by omega)
      · omega
    · rw [if_neg hm] at h
      split_ifs at h with hk
      by_cases hcover : i < o + k
      · exact ⟨i, by omega, hcover, hm⟩
      · exact ih (by omega) h (by omega) (by omega)

/-! ### Taking and giving back -/

theorem table_empty : Table n (fun _ => 0) ∅ :=
  ⟨by simp, by simp, by simp, by simp, fun _ _ h => absurd rfl h⟩

theorem Table.congr (h : Table n m B) {m' : ℕ → ℕ} (hm : ∀ i < n, m' i = m i) : Table n m' B := by
  refine ⟨h.pos, h.fits, h.apart, fun b hb i hi => ?_,
    fun i hi hne => h.clear i hi (by rwa [← hm i hi])⟩
  rw [hm i (hi.2.trans_le (h.fits b hb))]
  exact h.marked b hb i hi

/-- The blocks determine the table. -/
theorem Table.ext (h : Table n m B) {m' : ℕ → ℕ} (h' : Table n m' B) {i : ℕ} (hi : i < n) :
    m i = m' i := by
  by_cases hm : m i = 0
  · by_contra hne
    obtain ⟨b, hb, hcover⟩ := h'.clear i hi (by rw [← hm]; exact Ne.symm hne)
    have := h.pos b hb
    rw [h.marked b hb i hcover] at hm
    omega
  · obtain ⟨b, hb, hcover⟩ := h.clear i hi hm
    rw [h.marked b hb i hcover, h'.marked b hb i hcover]

theorem Table.take (h : Table n m B) {o k : ℕ} (hk : 0 < k) (hfit : o + k ≤ n)
    (hfree : ∀ i, o ≤ i → i < o + k → m i = 0) : Table n (fill m o k k) (insert (o, k) B) := by
  have hout : ∀ b ∈ B, b.1 + b.2 ≤ o ∨ o + k ≤ b.1 := by
    intro b hb
    by_contra hover
    have hpos := h.pos b hb
    have hcover : Covers b (max o b.1) := ⟨le_max_right .., by omega⟩
    have := h.marked b hb _ hcover
    rw [hfree (max o b.1) (le_max_left ..) (by omega)] at this
    omega
  constructor
  · intro b hb
    rcases Finset.mem_insert.mp hb with rfl | hb
    · exact hk
    · exact h.pos b hb
  · intro b hb
    rcases Finset.mem_insert.mp hb with rfl | hb
    · exact hfit
    · exact h.fits b hb
  · intro b hb b' hb' hne
    rcases Finset.mem_insert.mp hb with rfl | hb <;> rcases Finset.mem_insert.mp hb' with rfl | hb'
    · exact absurd rfl hne
    · exact (hout b' hb').symm
    · exact hout b hb
    · exact h.apart b hb b' hb' hne
  · intro b hb i hi
    rcases Finset.mem_insert.mp hb with rfl | hb
    · exact fill_in _ hi
    · have hnot : ¬Covers (o, k) i := by
        rintro ⟨hoi, hik⟩
        have := hout b hb
        have := hi.1
        have := hi.2
        simp only at hoi hik
        omega
      rw [fill_out _ hnot]
      exact h.marked b hb i hi
  · intro i hi hne
    by_cases hin : Covers (o, k) i
    · exact ⟨(o, k), Finset.mem_insert_self .., hin⟩
    · rw [fill_out _ hin] at hne
      obtain ⟨b, hb, hcover⟩ := h.clear i hi hne
      exact ⟨b, Finset.mem_insert_of_mem hb, hcover⟩

theorem Table.release (h : Table n m B) {b : ℕ × ℕ} (hb : b ∈ B) :
    Table n (fill m b.1 b.2 0) (B.erase b) := by
  have hother : ∀ b' ∈ B.erase b, ∀ i, Covers b' i → ¬Covers b i := by
    intro b' hb' i hi hi'
    obtain ⟨hne, hb'⟩ := Finset.mem_erase.mp hb'
    have := h.apart b' hb' b hb hne
    have := hi.1
    have := hi.2
    have := hi'.1
    have := hi'.2
    omega
  refine ⟨fun b' hb' => h.pos b' (Finset.mem_of_mem_erase hb'),
    fun b' hb' => h.fits b' (Finset.mem_of_mem_erase hb'),
    fun b₁ hb₁ b₂ hb₂ => h.apart b₁ (Finset.mem_of_mem_erase hb₁) b₂ (Finset.mem_of_mem_erase hb₂),
    ?_, ?_⟩
  · intro b' hb' i hi
    rw [fill_out _ (hother b' hb' i hi)]
    exact h.marked b' (Finset.mem_of_mem_erase hb') i hi
  · intro i hi hne
    by_cases hin : Covers b i
    · exact absurd (fill_in _ hin) hne
    · rw [fill_out _ hin] at hne
      obtain ⟨b', hb', hcover⟩ := h.clear i hi hne
      refine ⟨b', Finset.mem_erase.mpr ⟨?_, hb'⟩, hcover⟩
      rintro rfl
      exact hin hcover

/-! ### Counting -/

/-- The cells in use are those of the blocks. -/
theorem Table.card_used (h : Table n m B) :
    ((Finset.range n).filter fun i => m i ≠ 0).card = ∑ b ∈ B, b.2 := by
  have hcells : (Finset.range n).filter (fun i => m i ≠ 0) = B.biUnion fun b =>
    Finset.Ico b.1 (b.1 + b.2) := by
    ext i
    rw [Finset.mem_filter, Finset.mem_range, Finset.mem_biUnion]
    constructor
    · rintro ⟨hi, hne⟩
      obtain ⟨b, hb, hcover⟩ := h.clear i hi hne
      exact ⟨b, hb, Finset.mem_Ico.mpr hcover⟩
    · rintro ⟨b, hb, hin⟩
      have hcover : Covers b i := Finset.mem_Ico.mp hin
      have hpos := h.pos b hb
      refine ⟨hcover.2.trans_le (h.fits b hb), ?_⟩
      rw [h.marked b hb i hcover]
      omega
  rw [hcells, Finset.card_biUnion]
  · exact Finset.sum_congr rfl fun b _ => by rw [Nat.card_Ico]; omega
  · intro b hb b' hb' hne
    refine Finset.disjoint_left.mpr fun i hi hi' => ?_
    rw [Finset.mem_Ico] at hi hi'
    have := h.apart b hb b' hb' hne
    omega

end Blocks
