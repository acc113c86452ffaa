import Mathlib.Tactic

/-! Runs of a deterministic system. A run from `s` is a list of actions; `steps` pairs each action
    with the state it is taken in. Four rules carry every proof about runs:

    * `steps_inv`: what every step preserves holds wherever a step is taken;
    * `steps_inv_of_steps`: so does what every step preserves under a condition that the steps meet;
    * `foldl_inv_of_steps`: what every step preserves under a condition on that step holds at the end
      of a run whose steps all meet the condition;
    * `steps_iff`, `steps_iff_of`, `steps_iff_of_steps`: when a condition is exact for one step, it is
      exact for runs.

    Where the actions are known, `foldl_inv_of_mem` and `foldl_of_mem` ask only for them. -/

namespace Run

variable {σ α : Type*} {step : σ → α → σ}

/-- The actions of a run, each with the state it is taken in. -/
def steps (step : σ → α → σ) : σ → List α → List (σ × α)
  | _, [] => []
  | s, a :: as => (s, a) :: steps step (step s a) as

theorem steps_inv (Inv : σ → Prop) (hstep : ∀ s a, Inv s → Inv (step s a)) :
    ∀ (as : List α) (s : σ), Inv s → ∀ p ∈ steps step s as, Inv p.1
  | [], _, _, _, hp => by simp [steps] at hp
  | a :: as, s, hs, p, hp => by
      rcases List.mem_cons.mp hp with rfl | hp
      · exact hs
      · exact steps_inv Inv hstep as (step s a) (hstep s a hs) p hp

theorem foldl_inv (Inv : σ → Prop) (hstep : ∀ s a, Inv s → Inv (step s a)) :
    ∀ (as : List α) (s : σ), Inv s → Inv (as.foldl step s)
  | [], _, hs => hs
  | a :: as, s, hs => foldl_inv Inv hstep as (step s a) (hstep s a hs)

theorem foldl_inv_of_steps (Inv : σ → Prop) {Ok : σ → α → Prop}
    (hstep : ∀ s a, Inv s → Ok s a → Inv (step s a)) :
    ∀ (as : List α) (s : σ), Inv s → (∀ p ∈ steps step s as, Ok p.1 p.2) → Inv (as.foldl step s)
  | [], _, hs, _ => hs
  | a :: as, s, hs, hok => by
      rw [steps, List.forall_mem_cons] at hok
      exact foldl_inv_of_steps Inv hstep as (step s a) (hstep s a hs hok.1) hok.2

theorem steps_inv_of_steps (Inv : σ → Prop) {Ok : σ → α → Prop}
    (hstep : ∀ s a, Inv s → Ok s a → Inv (step s a)) :
    ∀ (as : List α) (s : σ), Inv s → (∀ p ∈ steps step s as, Ok p.1 p.2) →
      ∀ p ∈ steps step s as, Inv p.1
  | [], _, _, _, _, hp => by simp [steps] at hp
  | a :: as, s, hs, hok, p, hp => by
      rw [steps, List.forall_mem_cons] at hok
      rcases List.mem_cons.mp hp with rfl | hp
      · exact hs
      · exact steps_inv_of_steps Inv hstep as (step s a) (hstep s a hs hok.1) hok.2 p hp

theorem steps_append (as bs : List α) (s : σ) :
    steps step s (as ++ bs) = steps step s as ++ steps step (as.foldl step s) bs := by
  induction as generalizing s with
  | nil => rfl
  | cons a as ih => simp [steps, ih]

theorem snd_mem_of_mem_steps {as : List α} {s : σ} {p : σ × α} (h : p ∈ steps step s as) :
    p.2 ∈ as := by
  induction as generalizing s with
  | nil => simp [steps] at h
  | cons a as ih =>
    rcases List.mem_cons.mp h with rfl | h
    · exact List.mem_cons_self ..
    · exact List.mem_cons_of_mem _ (ih h)

theorem map_snd_steps (f : σ → α → σ) (as : List α) (s : σ) : (steps f s as).map Prod.snd = as := by
  induction as generalizing s with
  | nil => rfl
  | cons a as ih => rw [steps, List.map_cons, ih]

/-- What is asked of the actions alone does not depend on the states. -/
theorem forall_snd_steps {P : α → Prop} (as : List α) (s : σ) :
    (∀ p ∈ steps step s as, P p.2) ↔ ∀ a ∈ as, P a := by
  conv_rhs => rw [← map_snd_steps step as s, List.forall_mem_map]

/-- A condition exact for one step, among the steps that meet `Pre`, is exact for runs of such steps. -/
theorem steps_iff_of_steps (Inv : σ → Prop) (Pre Q Ok : σ → α → Prop)
    (hinv : ∀ s a, Inv s → Pre s a → Q s a → Inv (step s a))
    (hok : ∀ s a, Inv s → Pre s a → (Q s a ↔ Ok s a)) :
    ∀ (as : List α) (s : σ), Inv s → (∀ p ∈ steps step s as, Pre p.1 p.2) →
      ((∀ p ∈ steps step s as, Q p.1 p.2) ↔ ∀ p ∈ steps step s as, Ok p.1 p.2)
  | [], _, _, _ => by simp [steps]
  | a :: as, s, hs, hpre => by
      rw [steps, List.forall_mem_cons] at hpre
      rw [steps, List.forall_mem_cons, List.forall_mem_cons]
      have hrest (hq : Q s a) := steps_iff_of_steps Inv Pre Q Ok hinv hok as (step s a)
        (hinv s a hs hpre.1 hq) hpre.2
      constructor
      · rintro ⟨hq, hqs⟩
        exact ⟨(hok s a hs hpre.1).mp hq, (hrest hq).mp hqs⟩
      · rintro ⟨h, hoks⟩
        have hq := (hok s a hs hpre.1).mpr h
        exact ⟨hq, (hrest hq).mpr hoks⟩

theorem steps_iff_of (Inv : σ → Prop) (Q Ok : σ → α → Prop)
    (hinv : ∀ s a, Inv s → Q s a → Inv (step s a))
    (hok : ∀ s a, Inv s → (Q s a ↔ Ok s a)) (as : List α) (s : σ) (hs : Inv s) :
    (∀ p ∈ steps step s as, Q p.1 p.2) ↔ ∀ p ∈ steps step s as, Ok p.1 p.2 :=
  steps_iff_of_steps Inv (fun _ _ => True) Q Ok (fun s a h _ => hinv s a h) (fun s a h _ =>
    hok s a h) as s
    hs fun _ _ => trivial

theorem steps_iff (Inv : σ → Prop) (Ok : σ → α → Prop)
    (hstep : ∀ s a, Inv s → (Inv (step s a) ↔ Ok s a)) (as : List α) (s : σ) (hs : Inv s) :
    (∀ p ∈ steps step s as, Inv (step p.1 p.2)) ↔ ∀ p ∈ steps step s as, Ok p.1 p.2 :=
  steps_iff_of Inv (fun s a => Inv (step s a)) Ok (fun _ _ _ h => h) hstep as s hs

theorem foldl_inv_of_mem (Inv : σ → Prop) {as : List α}
    (hstep : ∀ a ∈ as, ∀ s, Inv s → Inv (step s a)) {s : σ}
    (hs : Inv s) : Inv (as.foldl step s) := by
  induction as generalizing s with
  | nil => exact hs
  | cons a as ih =>
    rw [List.forall_mem_cons] at hstep
    exact ih hstep.2 (hstep.1 s hs)

/-- What one of the actions brings about and none undoes holds at the end. -/
theorem foldl_of_mem (Inv Q : σ → Prop) {as : List α} (hstep : ∀ a ∈ as, ∀ s, Inv s → Inv (step s a))
    (hkeep : ∀ a ∈ as, ∀ s, Inv s → Q s → Q (step s a)) {a : α} (ha : a ∈ as)
    (hput : ∀ s, Inv s → Q (step s a)) {s : σ} (hs : Inv s) : Q (as.foldl step s) := by
  obtain ⟨front, back, rfl⟩ := List.append_of_mem ha
  have hfront := foldl_inv_of_mem Inv (fun b hb => hstep b (List.mem_append_left _ hb)) hs
  rw [List.foldl_append, List.foldl_cons]
  refine (foldl_inv_of_mem (fun s => Inv s ∧ Q s) (fun b hb s h => ?_)
    ⟨hstep a ha _ hfront, hput _ hfront⟩).2
  have hmem : b ∈ front ++ a :: back := List.mem_append_right _ (List.mem_cons_of_mem _ hb)
  exact ⟨hstep b hmem s h.1, hkeep b hmem s h.1 h.2⟩

end Run
