import VectorFence.Lib.Run

/-! A place that goes round. Each move takes it one further, and from the last place back to the first:

        0 ──▶ 1 ──▶ … ──▶ m
        ▲                 │
        └─────────────────┘

    Wherever it starts, also outside, every place of the round is reached after a number of moves
    that can be told in advance (`reaches`). -/

namespace RoundRobin

def next (m a : ℤ) : ℤ := if a + 1 > m then 0 else a + 1

/-- The moves from `a` until `t` is reached. -/
def remaining (m a t : ℤ) : ℕ := if a < t then (t - a).toNat else (t + 1 + max (m - a) 0).toNat

variable {m a t : ℤ}

theorem remaining_pos (ht : 0 ≤ t) : 0 < remaining m a t := by
  rw [remaining]
  split_ifs <;> omega

theorem remaining_le (ht : 0 ≤ t ∧ t ≤ m) : remaining m a t ≤ 2 * m.toNat + a.natAbs + 1 := by
  rw [remaining]
  split_ifs <;> omega

/-- One move less after each move. -/
theorem remaining_next (ht : 0 ≤ t ∧ t ≤ m) (hne : next m a ≠ t) :
    remaining m (next m a) t + 1 = remaining m a t := by
  rw [next] at hne ⊢
  rw [remaining, remaining]
  split_ifs at hne ⊢ <;> omega

/-- In a run with enough moves one of them reaches `t`; what the other actions do does not matter,
    as long as they leave the place alone. -/
theorem reaches {σ α : Type*} {step : σ → α → σ} (place : σ → ℤ) (moves : α → Bool) (Inv : σ → Prop)
    {as : List α}
    (hstep : ∀ a ∈ as, ∀ s, Inv s →
      Inv (step s a) ∧ place (step s a) = if moves a then next m (place s) else place s)
    (ht : 0 ≤ t ∧ t ≤ m) {s : σ} (hs : Inv s) (hn : remaining m (place s) t ≤ as.countP moves) :
    ∃ q ∈ Run.steps step s as, Inv q.1 ∧ moves q.2 = true ∧ place (step q.1 q.2) = t := by
  induction as generalizing s with
  | nil =>
    have hpos : 0 < remaining m (place s) t := remaining_pos ht.1
    rw [List.countP_nil] at hn
    omega
  | cons a as ih =>
    rw [List.forall_mem_cons] at hstep
    obtain ⟨hinv, hplace⟩ := hstep.1 s hs
    have hlater (hcount : remaining m (place (step s a)) t ≤ as.countP moves) :
        ∃ q ∈ Run.steps step s (a :: as), Inv q.1 ∧ moves q.2 = true ∧ place (step q.1 q.2) = t := by
      obtain ⟨q, hq, hreach⟩ := ih hstep.2 hinv hcount
      exact ⟨q, List.mem_cons_of_mem _ hq, hreach⟩
    rw [List.countP_cons] at hn
    by_cases hmove : moves a = true
    · rw [if_pos hmove] at hn hplace
      rcases eq_or_ne (next m (place s)) t with hreach | hne
      · exact ⟨(s, a), List.mem_cons_self .., hs, hmove, hplace.trans hreach⟩
      · have hless := remaining_next ht hne
        refine hlater ?_
        rw [hplace]
        omega
    · rw [if_neg hmove] at hn hplace
      exact hlater (hplace ▸ hn)

end RoundRobin
