import VectorFence.Clock.Basic

/-! The tokens of a string: its groups of characters between separators, however many of these stand
    in a row.

        "2018--03-25"  ──strtok, '-'──▶  "2018" "03" "25"        "--" ──▶ none -/

namespace VectorFence

namespace CStr

/-- The groups of characters, counted at their last one. -/
def groups (delim : UInt8) : CStr → ℕ
  | [] => 0
  | c :: s => (if c ≠ delim ∧ s.head?.getD delim = delim then 1 else 0) + groups delim s

variable {delim c : UInt8} {s : CStr}

theorem groups_dropWhile (delim : UInt8) (s : CStr) :
    groups delim (s.dropWhile (· = delim)) = groups delim s := by
  induction s with
  | nil => rfl
  | cons c s ih =>
    by_cases hc : c = delim
    · rw [List.dropWhile_cons_of_pos (by simpa using hc), ih, groups, if_neg (by simp [hc]),
        Nat.zero_add]
    · rw [List.dropWhile_cons_of_neg (by simpa using hc)]

/-- A group and what is behind its separator. -/
theorem groups_token (hc : c ≠ delim) (s : CStr) :
    groups delim (c :: s) = groups delim ((c :: s).dropWhile (· ≠ delim)).tail + 1 := by
  induction s generalizing c with
  | nil => simp [groups, hc]
  | cons e s ih =>
    rw [List.dropWhile_cons_of_pos (by simpa using hc)]
    by_cases he : e = delim
    · rw [List.dropWhile_cons_of_neg (by simpa using he), groups, if_pos ⟨hc, by simp [he]⟩, groups,
        if_neg (by simp [he])]
      simp [Nat.add_comm]
    · rw [groups, if_neg (by simp [he]), Nat.zero_add, ih he]

theorem length_tail_dropWhile (p : UInt8 → Bool) (s : CStr) :
    (s.dropWhile p).tail.length ≤ s.length - 1 := by
  rw [List.length_tail]
  exact Nat.sub_le_sub_right (List.length_dropWhile_le p s) 1

/-- There are as many tokens as groups, whatever number of calls from the length of the string on. -/
theorem length_tokens (n : ℕ) (hn : s.length ≤ n) : (tokens delim n s).length = groups delim s := by
  induction n generalizing s with
  | zero =>
    rw [List.length_eq_zero_iff.mp (Nat.le_zero.mp hn)]
    rfl
  | succ n ih =>
    rw [tokens, strtok, ← groups_dropWhile]
    have hlen := List.length_dropWhile_le (· = delim) s
    rcases hd : s.dropWhile (· = delim) with _ | ⟨c, s'⟩
    · rfl
    · have hc : c ≠ delim := by
        have := List.head?_dropWhile_not (· = delim) s
        simpa [hd] using this
      rw [hd] at hlen
      have hrest := length_tail_dropWhile (· ≠ delim) (c :: s')
      simp only [List.length_cons] at hlen hrest
      rw [groups_token hc]
      simp only [List.length_cons]
      rw [ih (by omega)]

theorem length_splitTokens (delim : UInt8) (s : CStr) : (splitTokens delim s).length = groups delim s :=
  length_tokens s.length le_rfl

/-! ### Tokens between single separators -/

theorem forall_ne_delim {p : CStr} (hd : delim ∉ p) : ∀ x ∈ p, decide (x ≠ delim) = true := by
  intro x hx
  rw [decide_eq_true_iff]
  rintro rfl
  exact hd hx

theorem strtok_part {p : CStr} (hp : p ≠ []) (hd : delim ∉ p) (rest : CStr) :
    strtok delim (p ++ delim :: rest) = some (p, rest) := by
  rcases p with _ | ⟨c, p⟩
  · exact absurd rfl hp
  · have hc : c ≠ delim := fun h => hd (h ▸ List.mem_cons_self)
    have hne := forall_ne_delim hd
    rw [strtok, List.cons_append, List.dropWhile_cons_of_neg (by simpa using hc)]
    simp only [← List.cons_append]
    rw [List.takeWhile_append_of_pos hne, List.dropWhile_append_of_pos hne,
      List.takeWhile_cons_of_neg (by simp), List.dropWhile_cons_of_neg (by simp), List.append_nil,
      List.tail_cons]

theorem strtok_last {p : CStr} (hp : p ≠ []) (hd : delim ∉ p) : strtok delim p = some (p, []) := by
  rcases p with _ | ⟨c, p⟩
  · exact absurd rfl hp
  · have hc : c ≠ delim := fun h => hd (h ▸ List.mem_cons_self)
    have hne := forall_ne_delim hd
    rw [strtok, List.dropWhile_cons_of_neg (by simpa using hc)]
    simp only
    rw [List.takeWhile_eq_self_iff.mpr hne, List.dropWhile_eq_nil_iff.mpr hne, List.tail_nil]

/-- Three parts, as the driver and the handler expect them. -/
theorem splitTokens_three {a b d : CStr} (ha : a ≠ [] ∧ delim ∉ a) (hb : b ≠ [] ∧ delim ∉ b)
    (hd : d ≠ [] ∧ delim ∉ d) : splitTokens delim (a ++ delim :: (b ++ delim :: d)) = [a, b, d] := by
  obtain ⟨n, hn⟩ : ∃ n, (a ++ delim :: (b ++ delim :: d)).length = n + 4 := by
    have ha' := List.length_pos_of_ne_nil ha.1
    have hb' := List.length_pos_of_ne_nil hb.1
    have hd' := List.length_pos_of_ne_nil hd.1
    refine ⟨a.length + b.length + d.length - 2, ?_⟩
    simp only [List.length_append, List.length_cons]
    omega
  rw [splitTokens, hn, tokens, strtok_part ha.1 ha.2]
  simp only
  rw [tokens, strtok_part hb.1 hb.2]
  simp only
  rw [tokens, strtok_last hd.1 hd.2]
  simp [tokens, strtok]

end CStr

end VectorFence
