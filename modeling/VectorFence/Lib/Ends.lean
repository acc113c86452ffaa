import Mathlib.Tactic

/-! Total correctness of programs with a state that may never come back. A program is a `StateT σ
    Option`, `none` being a run that waits for ever; `Ends P m Q` says that from every state of `P`
    the program `m` ends, with a result and a state of `Q`.

        Ends P m R    ∀ a, Ends (R a) (f a) Q
        ─────────────────────────────────────
                 Ends P (m >>= f) Q               -/

variable {σ α β : Type}

/-- One step of a run. -/
theorem run_bind_of {m : StateT σ Option α} {s s' : σ} {a : α} (h : m.run s = some (a, s'))
    (f : α → StateT σ Option β) : (m >>= f).run s = (f a).run s' := by
  rw [StateT.run_bind, h]
  rfl

/-- From every state of `P` the program ends in `Q`. -/
def Ends (P : σ → Prop) (m : StateT σ Option α) (Q : α → σ → Prop) : Prop :=
  ∀ s, P s → ∃ a s', m.run s = some (a, s') ∧ Q a s'

namespace Ends

variable {P P' : σ → Prop} {Q R : α → σ → Prop} {S : σ → σ → Prop} {U : Unit → σ → Prop}
  {m : StateT σ Option α}

theorem bind {f : α → StateT σ Option β} {V : β → σ → Prop} (hm : Ends P m R)
    (hf : ∀ a, Ends (R a) (f a) V) : Ends P (m >>= f) V := by
  intro s hs
  obtain ⟨a, s', hrun, ha⟩ := hm s hs
  obtain ⟨b, s'', hrun', hb⟩ := hf a s' ha
  exact ⟨b, s'', (run_bind_of hrun f).trans hrun', hb⟩

theorem pure {a : α} (h : ∀ s, P s → Q a s) : Ends P (pure a) Q := by
  intro s hs
  exact ⟨a, s, rfl, h s hs⟩

theorem get (h : ∀ s, P s → S s s) : Ends P get S := by
  intro s hs
  exact ⟨s, s, rfl, h s hs⟩

theorem modify {f : σ → σ} (h : ∀ s, P s → U () (f s)) : Ends P (modify f) U := by
  intro s hs
  exact ⟨(), f s, rfl, h s hs⟩

theorem ite {c : Prop} [Decidable c] {m' : StateT σ Option α} (hm : c → Ends P m Q)
    (hm' : ¬c → Ends P m' Q) : Ends P (if c then m else m') Q := by
  split_ifs with h
  · exact hm h
  · exact hm' h

/-- The rule of consequence. -/
theorem imp (h : Ends P m R) (hpre : ∀ s, P' s → P s) (hpost : ∀ a s, R a s → Q a s) :
    Ends P' m Q := by
  intro s hs
  obtain ⟨a, s', hrun, ha⟩ := h s (hpre s hs)
  exact ⟨a, s', hrun, hpost a s' ha⟩

end Ends
