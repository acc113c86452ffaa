import Mathlib.Tactic

/-! Paging through a list: pages of `P` items, the last one possibly shorter, an empty list being one
    empty page. `browseFrom` calls `next` until a state is the last one; when the states are known to
    follow the pages one by one, it stops after exactly as many steps as there are pages. -/

namespace Pager

variable {α σ : Type*} {P : ℕ}

/-- Page `i` of a list, counted from 0. -/
def chunk (P i : ℕ) (l : List α) : List α := (l.drop (P * i)).take P

/-- Number of pages of a list of `n` items. -/
def total (P n : ℕ) : ℕ := max 1 ((n + P - 1) / P)

/-- The states visited from `s` up to the first last one; `none` when `fuel` runs out before. -/
def browseFrom (last : σ → Bool) (next : σ → σ) : ℕ → σ → Option (List σ)
  | 0, _ => none
  | fuel + 1, s => if last s then some [s] else (browseFrom last next fuel (next s)).map (s :: ·)

theorem take_chunks (l : List α) : ∀ k,
    ((List.range k).map fun i => chunk P i l).flatten = l.take (P * k)
  | 0 => by simp
  | k + 1 => by
      rw [List.range_succ, List.map_append, List.flatten_append, take_chunks l k, List.map_singleton,
        List.flatten_singleton, chunk, Nat.mul_succ, List.take_add]

/-- Page `i` is not the last one exactly when the list goes on after it. -/
theorem succ_lt_total (hP : 0 < P) {n i : ℕ} : i + 1 < total P n ↔ P * (i + 1) < n := by
  have key : i + 2 ≤ (n + P - 1) / P ↔ P * (i + 1) < n := by
    rw [Nat.le_div_iff_mul_le hP]
    have : (i + 2) * P = P * (i + 1) + P := by ring
    omega
  rw [total, ← key]; omega

theorem total_pos (P n : ℕ) : 0 < total P n := by rw [total]; omega

/-- The pages are the whole list. -/
theorem flatten_chunks (hP : 0 < P) (l : List α) :
    ((List.range (total P l.length)).map fun i => chunk P i l).flatten = l := by
  rw [take_chunks, List.take_of_length_le]
  have hpos := total_pos P l.length
  have hlast := succ_lt_total hP (n := l.length) (i := total P l.length - 1)
  rw [Nat.sub_add_cancel hpos] at hlast
  omega

/-- Browsing a source whose state after `i` steps satisfies `At i` visits all `N` pages. -/
theorem browseFrom_spec (last : σ → Bool) (next : σ → σ) (At : ℕ → σ → Prop) {N : ℕ}
    (hnext : ∀ i s, At i s → i + 1 < N → At (i + 1) (next s))
    (hlast : ∀ i s, At i s → i < N → (last s = true ↔ i + 1 = N)) :
    ∀ (k i : ℕ) (s : σ), At i s → i + (k + 1) = N →
      ∃ l : List σ, l.length = k + 1 ∧ (∀ j (h : j < l.length), At (i + j) l[j]) ∧
        ∀ fuel, k + 1 ≤ fuel → browseFrom last next fuel s = some l
  | 0, i, s, hs, hN => by
      refine ⟨[s], rfl, fun j hj => ?_, fun fuel hf => ?_⟩
      · have hj0 : j = 0 := by simpa using hj
        subst hj0; simpa using hs
      · obtain ⟨f, rfl⟩ := Nat.exists_eq_add_of_le' hf
        rw [browseFrom, if_pos ((hlast i s hs (by omega)).mpr hN)]
  | k + 1, i, s, hs, hN => by
      obtain ⟨l, hlen, hat, hrun⟩ := browseFrom_spec last next At hnext hlast k (i + 1) (next s)
        (hnext i s hs (by omega)) (by omega)
      refine ⟨s :: l, by rw [List.length_cons, hlen], fun j hj => ?_, fun fuel hf => ?_⟩
      · cases j with
        | zero => simpa using hs
        | succ j =>
          have := hat j (by simpa using hj)
          rwa [Nat.add_right_comm, Nat.add_assoc] at this
      · obtain ⟨f, rfl⟩ := Nat.exists_eq_add_of_le' hf
        have hno : ¬ last s = true := fun h => by
          have := (hlast i s hs (by omega)).mp h; omega
        rw [show f + (k + 1 + 1) = (f + (k + 1)) + 1 by omega, browseFrom, if_neg hno,
          hrun _ (by omega), Option.map_some]

end Pager
