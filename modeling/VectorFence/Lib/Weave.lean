import Mathlib.Tactic

/-! A text with inserts. A machine reads the text and calls, behind some of its symbols, for an
    insert; the insert stands in front of the symbol that follows.

        text     a b c d e f         calls behind c and f
        woven    a b c X d e f       X, what the first call was answered with; behind f nothing follows

    The first `skip` symbols may be read without being shown, as a header that is left out. -/

namespace Weave

variable {S α ν : Type*} (step : S → α → S × Option ν)

/-- The state behind a text. -/
def run : S → List α → S
  | s, [] => s
  | s, c :: cs => run (step s c).1 cs

/-- The calls of a text. -/
def calls : S → List α → List ν
  | _, [] => []
  | s, c :: cs => (step s c).2.toList ++ calls (step s c).1 cs

/-- The text with its inserts; `pend` is the insert that is due in front of the next symbol. -/
def weave : S → ℕ → List α → List α → List (List α) → List α
  | _, _, _, [], _ => []
  | s, skip, pend, c :: cs, ins =>
      pend ++ (if skip = 0 then [c] else []) ++
        match (step s c).2 with
        | none => weave (step s c).1 (skip - 1) [] cs ins
        | some _ => weave (step s c).1 (skip - 1) (ins.headD []) cs ins.tail

variable {step} {s : S} {c : α} {cs : List α}

theorem weave_nil (skip : ℕ) (pend : List α) (ins : List (List α)) :
    weave step s skip pend [] ins = [] := rfl

theorem weave_quiet (h : (step s c).2 = none) (skip : ℕ) (pend : List α) (ins : List (List α)) :
    weave step s skip pend (c :: cs) ins =
      pend ++ ((if skip = 0 then [c] else []) ++ weave step (step s c).1 (skip - 1) [] cs ins) := by
  rw [weave, h, List.append_assoc]

theorem weave_call {name : ν} (h : (step s c).2 = some name) (skip : ℕ) (pend text : List α)
    (ins : List (List α)) :
    weave step s skip pend (c :: cs) (text :: ins) =
      pend ++ ((if skip = 0 then [c] else []) ++ weave step (step s c).1 (skip - 1) text cs ins) := by
  rw [weave, h, List.append_assoc]
  rfl

/-- A part of the insert that is due can be shown before the rest of it. -/
theorem weave_take (k skip : ℕ) (pend : List α) (ins : List (List α)) (hcs : cs ≠ []) :
    weave step s skip pend cs ins = pend.take k ++ weave step s skip (pend.drop k) cs ins := by
  cases cs with
  | nil => exact absurd rfl hcs
  | cons c cs =>
    simp only [weave, ← List.append_assoc, List.take_append_drop]

/-- The insert that the last symbol calls for is not shown: nothing follows it. -/
theorem weave_take_calls (skip : ℕ) (pend : List α) (ins : List (List α)) :
    weave step s skip pend cs (ins.take (calls step s cs.dropLast).length) =
    weave step s skip pend cs ins := by
  induction cs generalizing s skip pend ins with
  | nil => rfl
  | cons c cs ih =>
    cases cs with
    | nil => cases hstep : (step s c).2 <;> simp only [weave, hstep]
    | cons d cs =>
      rw [List.dropLast_cons_cons, calls]
      cases hstep : (step s c).2 with
      | none => rw [Option.toList, List.nil_append, weave_quiet hstep, weave_quiet hstep, ih]
      | some name =>
        cases ins with
        | nil => rw [List.take_nil]
        | cons text ins =>
          rw [Option.toList, List.singleton_append, List.length_cons, List.take_succ_cons,
            weave_call hstep,
            weave_call hstep, ih]

theorem run_append (xs ys : List α) : run step s (xs ++ ys) = run step (run step s xs) ys := by
  induction xs generalizing s with
  | nil => rfl
  | cons x xs ih => exact ih

theorem calls_append (xs ys : List α) :
    calls step s (xs ++ ys) = calls step s xs ++ calls step (run step s xs) ys := by
  induction xs generalizing s with
  | nil => rfl
  | cons x xs ih => simp only [List.cons_append, calls, run, ih, List.append_assoc]

/-- A part of the text without calls is shown as it is. -/
theorem weave_append_of_quiet {xs : List α} (hquiet : calls step s xs = []) (hne : xs ≠ [])
    (pend ys : List α)
    (ins : List (List α)) :
    weave step s 0 pend (xs ++ ys) ins = pend ++ xs ++ weave step (run step s xs) 0 [] ys ins := by
  induction xs generalizing s pend with
  | nil => exact absurd rfl hne
  | cons x xs ih =>
    rw [calls, List.append_eq_nil_iff] at hquiet
    have hx : (step s x).2 = none := by simpa using hquiet.1
    rw [List.cons_append, weave_quiet hx, run]
    rcases eq_or_ne xs [] with rfl | hxs
    · simp [run]
    · rw [ih hquiet.2 hxs]
      simp

/-- No text has more inserts than symbols. -/
theorem length_weave_le {k : ℕ} (skip : ℕ) (pend : List α) (ins : List (List α))
    (hins : ∀ text ∈ ins, text.length ≤ k) :
    (weave step s skip pend cs ins).length ≤ pend.length + cs.length * (k + 1) := by
  induction cs generalizing s skip pend ins with
  | nil => simp [weave]
  | cons c cs ih =>
    have hshown : (if skip = 0 then [c] else []).length ≤ 1 := by split_ifs <;> simp
    rw [weave, List.length_append, List.length_append, List.length_cons, Nat.add_mul]
    cases (step s c).2 with
    | none =>
      have := ih (s := (step s c).1) (skip - 1) [] ins hins
      simp only [List.length_nil] at this ⊢
      omega
    | some name =>
      have hhead : (ins.headD []).length ≤ k := by
        cases ins with
        | nil => simp
        | cons text ins => exact hins text (List.mem_cons_self ..)
      have := ih (s := (step s c).1) (skip - 1) (ins.headD []) ins.tail
        fun text h => hins text (List.mem_of_mem_tail h)
      simp only at this ⊢
      omega

end Weave
