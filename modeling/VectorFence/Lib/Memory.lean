import Mathlib.Data.List.GetD
import Mathlib.Tactic

/-! A memory and the stores a program makes in it. A store puts cells at an address; stores that
    adjoin each other make one, and outside of all stores the memory is as before:

        ·····│ a a a │ b b │ c │·····        put a, put b, put c  =  put (a ++ b ++ c) -/

namespace Memory

variable {β : Type*}

/-- Cells put at an address. -/
def put (m : ℕ → β) (a : ℕ) (cells : List β) : ℕ → β := fun x =>
  if a ≤ x then cells.getD (x - a) (m x) else m x

/-- The `n` cells at an address. -/
def read (m : ℕ → β) (a n : ℕ) : List β := (List.range n).map fun k => m (a + k)

structure Store (β : Type*) where
  addr : ℕ
  cells : List β

def run (m : ℕ → β) (stores : List (Store β)) : ℕ → β :=
  stores.foldl (fun m s => put m s.addr s.cells) m

/-- Each store begins where the one before it ends, the first one at `a`. -/
def Adjoining : ℕ → List (Store β) → Prop
  | _, [] => True
  | a, s :: stores => s.addr = a ∧ Adjoining (a + s.cells.length) stores

/-- The cells of all stores. -/
def written (stores : List (Store β)) : List β := stores.flatMap Store.cells

theorem written_cons (s : Store β) (stores : List (Store β)) :
    written (s :: stores) = s.cells ++ written stores := List.flatMap_cons

variable {m : ℕ → β} {a n x : ℕ} {cells : List β} {stores : List (Store β)}

@[simp] theorem put_nil (m : ℕ → β) (a : ℕ) : put m a [] = m := by
  funext x
  simp [put]

theorem put_outside (m : ℕ → β) (h : x < a ∨ a + cells.length ≤ x) : put m a cells x = m x := by
  rw [put]
  rcases h with h | h
  · rw [if_neg (by omega)]
  · rw [if_pos (by omega), List.getD_eq_default _ _ (by omega)]

theorem put_append (m : ℕ → β) (a : ℕ) (front back : List β) :
    put (put m a front) (a + front.length) back = put m a (front ++ back) := by
  funext x
  by_cases hx : a + front.length ≤ x
  · have hfront : put m a front x = m x := put_outside m (Or.inr hx)
    rw [put, if_pos hx, hfront, put, if_pos (by omega), List.getD_append_right _ _ _ _ (by omega)]
    congr 1
    omega
  · rw [put, if_neg hx, put, put]
    by_cases ha : a ≤ x
    · rw [if_pos ha, if_pos ha, List.getD_append _ _ _ _ (by omega)]
    · rw [if_neg ha, if_neg ha]

/-- What a later store at the same address leaves of an earlier one. -/
theorem put_put (m : ℕ → β) (a : ℕ) (cells later : List β) :
    put (put m a cells) a later = put m a (later ++ cells.drop later.length) := by
  funext x
  rw [put, put, put]
  by_cases ha : a ≤ x
  · rw [if_pos ha, if_pos ha, if_pos ha]
    by_cases hx : x - a < later.length
    · rw [List.getD_append _ _ _ _ hx]
      simp [List.getD_eq_getElem?_getD, hx]
    · have hlater : later.length ≤ x - a := by omega
      rw [List.getD_eq_default _ _ hlater, List.getD_append_right _ _ _ _ hlater]
      simp [List.getD_eq_getElem?_getD, hlater]
  · rw [if_neg ha, if_neg ha, if_neg ha]

theorem read_put (m : ℕ → β) (a : ℕ) (cells : List β) :
    read (put m a cells) a cells.length = cells := by
  apply List.ext_getElem
  · simp [read]
  · intro k h h'
    simp [read, put, List.getD_eq_getElem?_getD, h']

theorem run_adjoining : ∀ (stores : List (Store β)) (a : ℕ) (m : ℕ → β), Adjoining a stores →
    run m stores = put m a (written stores)
  | [], a, m, _ => (put_nil m a).symm
  | s :: stores, a, m, h => by
      obtain ⟨rfl, h⟩ := h
      have ih := run_adjoining stores _ (put m s.addr s.cells) h
      rw [written_cons, ← put_append]
      exact ih

theorem Adjoining.bound : ∀ {stores : List (Store β)} {a : ℕ}, Adjoining a stores → ∀ s ∈ stores,
    s.addr + s.cells.length ≤ a + (written stores).length
  | [], _, _, _, hs => by simp at hs
  | s :: stores, a, h, t, ht => by
      obtain ⟨rfl, h⟩ := h
      rw [written_cons, List.length_append]
      rcases List.mem_cons.mp ht with rfl | ht
      · omega
      · have := h.bound t ht
        omega

end Memory
