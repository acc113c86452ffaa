import Mathlib.Tactic

/-! A table of places and those who hold one: a place is in use exactly if somebody holds it, and
    nobody else does. Places are taken when they are free and given back by their holder. -/

namespace Slots

variable {I C : Type*}

/-- `used` marks the places that are in use, `held` says which one somebody has. -/
structure Owned (used : I → Bool) (held : C → Option I) : Prop where
  used_iff : ∀ i, used i = true ↔ ∃ c, held c = some i
  unique : ∀ c c' i, held c = some i → held c' = some i → c = c'

variable {used : I → Bool} {held : C → Option I}

theorem owned_empty : Owned (fun _ : I => false) (fun _ : C => none) :=
  ⟨fun _ => by simp, fun _ _ _ h => by simp at h⟩

section Counting

variable [Fintype I] [Fintype C]

/-- There are as many holders as places in use. -/
theorem Owned.card_eq (h : Owned used held) :
    (Finset.univ.filter fun c => (held c).isSome).card =
    (Finset.univ.filter fun i => used i = true).card := by
  refine Finset.card_bij (fun c hc => (held c).get (Finset.mem_filter.mp hc).2) ?_ ?_ ?_
  · intro c hc
    rw [Finset.mem_filter, h.used_iff]
    exact ⟨Finset.mem_univ _, c, (Option.some_get _).symm⟩
  · intro c hc c' hc' heq
    refine h.unique c c' _ (Option.some_get (Finset.mem_filter.mp hc).2).symm ?_
    rw [heq, Option.some_get]
  · intro i hi
    obtain ⟨c, hc⟩ := (h.used_iff i).mp (Finset.mem_filter.mp hi).2
    exact ⟨c, by simp [hc], by simp [hc]⟩

/-- All places are in use when there are as many holders. -/
theorem Owned.card_eq_card (h : Owned used held) :
    (Finset.univ.filter fun c => (held c).isSome).card = Fintype.card I ↔ ∀ i, used i = true := by
  rw [h.card_eq, Finset.card_eq_iff_eq_univ, Finset.filter_eq_self]
  exact ⟨fun hall i => hall i (Finset.mem_univ _), fun hall i _ => hall i⟩

end Counting

variable [DecidableEq I] [DecidableEq C] {i : I} {c : C}

theorem Owned.take (h : Owned used held) (hi : used i = false) (hc : held c = none) :
    Owned (Function.update used i true) (Function.update held c (some i)) := by
  have hfree : ∀ c', held c' ≠ some i := fun c' hc' => by simp [(h.used_iff i).mpr ⟨c', hc'⟩] at hi
  constructor
  · intro j
    rcases eq_or_ne j i with rfl | hj
    · simp only [Function.update_self, true_iff]
      exact ⟨c, Function.update_self ..⟩
    · rw [Function.update_of_ne hj, h.used_iff]
      constructor
      · rintro ⟨c', hc'⟩
        have hne : c' ≠ c := by
          rintro rfl
          simp [hc] at hc'
        exact ⟨c', by rw [Function.update_of_ne hne]; exact hc'⟩
      · rintro ⟨c', hc'⟩
        rcases eq_or_ne c' c with rfl | hne
        · rw [Function.update_self, Option.some.injEq] at hc'
          exact absurd hc'.symm hj
        · rw [Function.update_of_ne hne] at hc'
          exact ⟨c', hc'⟩
  · intro c₁ c₂ j h₁ h₂
    by_cases hne₁ : c₁ = c <;> by_cases hne₂ : c₂ = c
    · rw [hne₁, hne₂]
    · rw [hne₁, Function.update_self, Option.some.injEq] at h₁
      rw [Function.update_of_ne hne₂, ← h₁] at h₂
      exact absurd h₂ (hfree c₂)
    · rw [hne₂, Function.update_self, Option.some.injEq] at h₂
      rw [Function.update_of_ne hne₁, ← h₂] at h₁
      exact absurd h₁ (hfree c₁)
    · rw [Function.update_of_ne hne₁] at h₁
      rw [Function.update_of_ne hne₂] at h₂
      exact h.unique c₁ c₂ j h₁ h₂

theorem Owned.release (h : Owned used held) (hc : held c = some i) :
    Owned (Function.update used i false) (Function.update held c none) := by
  constructor
  · intro j
    rcases eq_or_ne j i with rfl | hj
    · simp only [Function.update_self, Bool.false_eq_true, false_iff, not_exists]
      intro c' hc'
      rcases eq_or_ne c' c with rfl | hne
      · simp at hc'
      · rw [Function.update_of_ne hne] at hc'
        exact hne (h.unique c' c j hc' hc)
    · rw [Function.update_of_ne hj, h.used_iff]
      constructor
      · rintro ⟨c', hc'⟩
        have hne : c' ≠ c := by
          rintro rfl
          rw [hc, Option.some.injEq] at hc'
          exact hj hc'.symm
        exact ⟨c', by rw [Function.update_of_ne hne]; exact hc'⟩
      · rintro ⟨c', hc'⟩
        rcases eq_or_ne c' c with rfl | hne
        · simp at hc'
        · rw [Function.update_of_ne hne] at hc'
          exact ⟨c', hc'⟩
  · intro c₁ c₂ j h₁ h₂
    rcases eq_or_ne c₁ c with rfl | hne₁
    · simp at h₁
    · rcases eq_or_ne c₂ c with rfl | hne₂
      · simp at h₂
      · rw [Function.update_of_ne hne₁] at h₁
        rw [Function.update_of_ne hne₂] at h₂
        exact h.unique c₁ c₂ j h₁ h₂

end Slots
