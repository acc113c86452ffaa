import VectorFence.Alarm.Debounce
import VectorFence.Station

/-! A condition that is confirmed. `TIM3_IRQHandler` counts a running verify counter as long as it is
    below the sensitivity plus one, a sum of 32 bits; the counter has 8.

        sensitivity 4:    1 ─▶ 2 ─▶ 3 ─▶ 4 ─▶ 5 ─▶ 5 …         255:   … ─▶ 254 ─▶ 255 ─▶ 0

    At 255 the counter is still below the sensitivity plus one and wraps. So a counter that has reached
    the sensitivity stays there as long as the checks find the condition, for every sensitivity but the
    largest (`Dev.staysConfirmed_iff`). -/

namespace VectorFence

/-- The count at a tick, from a limit the counter has reached. -/
theorem Dev.le_countUp {limit : ℕ} (h : limit < 255) {cnt : UInt8} (hc : limit ≤ cnt.toNat) :
    limit ≤ (Dev.countUp limit cnt).toNat := by
  rw [Dev.countUp]
  split_ifs with hrun
  · have hadd : (cnt + 1).toNat = (cnt.toNat + 1) % 256 := UInt8.toNat_add cnt 1
    rw [hadd]
    omega
  · exact hc

theorem Verifier.le_check {limit : ℕ} {v : Verifier} (h : limit ≤ v.cnt.toNat) :
    limit ≤ (v.check limit true).cnt.toNat := by
  cases hb : v.bit with
  | true => rwa [check_latched hb]
  | false =>
    rw [check_found hb, started]
    split_ifs with h0
    · rw [h0] at h
      exact h.trans (Nat.zero_le 1)
    · exact h

namespace Dev

open Alarm

variable {d : Dev} {f : Zone} {c : Cond} {s : UInt8}

/-- A tick counts the intrusion and the broken-line counters of both zones. -/
theorem tim3_countUp (hc : c ≠ .rlx) :
    d.tim3.verifyCnt f c = countUp (d.para.alarmSensitivity f).toNat (d.verifyCnt f c) := by
  obtain ⟨e, -, ha, h | ⟨-, ha'⟩⟩ := tim3_eq (d := d)
  · cases c with
    | rlx => exact absurd rfl hc
    | invd | opn =>
      rw [h, verifyCnt, tim3Second_alarm, ha]
      rfl
  · cases c with
    | rlx => exact absurd rfl hc
    | invd | opn =>
      rw [verifyCnt, ha', ha]
      rfl

/-- The zone is armed with sensitivity `s`. -/
structure ArmedWith (f : Zone) (s : UInt8) (d : Dev) : Prop where
  on : d.alarm.buFangFlag f = .on
  sensitivity : d.para.alarmSensitivity f = s

theorem ArmedWith.step (h : ArmedWith f s d) (op : CheckOp) : ArmedWith f s (checkStep d op) := by
  obtain ⟨hp, ha⟩ := checkStep_frame (d := d) op
  exact ⟨by rw [ha, h.on], by rw [hp]; exact h.sensitivity⟩

/-- A check of the zone finds the condition. -/
def Present (f : Zone) (c : Cond) (d : Dev) : CheckOp → Prop
  | .check g r => g = f → d.finds f c r = true
  | .tick => True

/-- With sensitivity `s` in force, a counter that is at `s` or above it stays so over every run whose
    checks find the condition. -/
def StaysConfirmed (f : Zone) (c : Cond) (s : UInt8) : Prop :=
  ∀ (d : Dev) (ops : List CheckOp), ArmedWith f s d → s ≤ d.verifyCnt f c →
    (∀ p ∈ Run.steps checkStep d ops, Present f c p.1 p.2) →
    ∀ p ∈ Run.steps checkStep d ops, s ≤ (checkStep p.1 p.2).verifyCnt f c

/-- One step keeps a confirmed condition confirmed. -/
theorem step_confirmed (hc : c ≠ .rlx) (hs : s ≠ 255) (ha : ArmedWith f s d) (h : s ≤ d.verifyCnt f c)
    {op : CheckOp} (hop : Present f c d op) : s ≤ (checkStep d op).verifyCnt f c := by
  have hlimit : d.verifyLimit f c = s.toNat := by
    cases c with
    | rlx => exact absurd rfl hc
    | invd | opn => exact congrArg UInt8.toNat ha.sensitivity
  rw [UInt8.le_iff_toNat_le] at h ⊢
  cases op with
  | tick =>
    rw [checkStep, tim3_countUp hc, ha.sensitivity]
    apply le_countUp _ h
    have hlt := s.toNat_lt
    have hne : s.toNat ≠ 255 := fun h255 => hs (UInt8.toNat_inj.mp h255)
    omega
  | check g r =>
    rcases eq_or_ne g f with rfl | hg
    · have hv := congrArg Verifier.cnt (adcCheckHandler_verifier (c := c) r ha.on)
      have hcnt : (checkStep d (.check g r)).verifyCnt g c = _ := hv
      rw [hcnt, hop rfl, hlimit]
      exact Verifier.le_check h
    · have hv := congrArg Verifier.cnt (adcCheckHandler_other (d := d) (c := c) r hg.symm)
      have hcnt : (checkStep d (.check g r)).verifyCnt f c = d.verifyCnt f c := hv
      rwa [hcnt]

/-- At the largest sensitivity a counter of 255 is set back by the next tick. -/
theorem tim3_wraps (hc : c ≠ .rlx) (ha : ArmedWith f 255 d) (h : d.verifyCnt f c = 255) :
    d.tim3.verifyCnt f c = 0 := by
  rw [tim3_countUp hc, ha.sensitivity, h]
  decide

/-- A condition that is confirmed stays so for every sensitivity but 255. -/
theorem staysConfirmed_iff (hc : c ≠ .rlx) : StaysConfirmed f c s ↔ s ≠ 255 := by
  constructor
  · rintro h rfl
    let d : Dev := setVerifyCnt f 255 c (setAlarmSensitivity f 255 blank)
    have hcnt : d.verifyCnt f c = 255 := by rw [setVerifyCnt_verifyCnt, if_pos ⟨rfl, rfl⟩]
    have ha : ArmedWith f 255 d := by
      cases c <;> exact ⟨rfl, Function.update_self ..⟩
    have htick := h d [.tick] ha (by rw [hcnt]; decide) (by simp [Run.steps, Present]) (d, .tick)
      (by simp [Run.steps])
    rw [checkStep, tim3_wraps hc ha hcnt] at htick
    exact absurd htick (by decide)
  · intro hs d ops ha h hops p hp
    have hinv := Run.steps_inv_of_steps (fun d => ArmedWith f s d ∧ s ≤ d.verifyCnt f c)
      (fun d op hd hop => ⟨hd.1.step op, step_confirmed hc hs hd.1 hd.2 hop⟩) ops d ⟨ha, h⟩ hops p hp
    exact step_confirmed hc hs hinv.1 hinv.2 (hops p hp)

/-- The sensitivity of a new device, and an intrusion that a check has found. -/
theorem staysConfirmed_four : StaysConfirmed 0 .invd 4 :=
  (staysConfirmed_iff (by decide)).mpr (by decide)

/-! ### The largest sensitivity -/

/-- Ticks count a running counter up to the sensitivity. -/
theorem verifyCnt_ticks (hc : c ≠ .rlx) (n : ℕ) (ha : ArmedWith f s d)
    (h0 : 0 < (d.verifyCnt f c).toNat)
    (hn : (d.verifyCnt f c).toNat + n ≤ s.toNat) :
    (((List.replicate n CheckOp.tick).foldl checkStep d).verifyCnt f c).toNat =
    (d.verifyCnt f c).toNat + n := by
  induction n generalizing d with
  | zero => rfl
  | succ n ih =>
    have htick : (d.tim3.verifyCnt f c).toNat = (d.verifyCnt f c).toNat + 1 := by
      have hlt := s.toNat_lt
      have hadd : (d.verifyCnt f c + 1).toNat = ((d.verifyCnt f c).toNat + 1) % 256 :=
        UInt8.toNat_add _ 1
      rw [tim3_countUp hc, ha.sensitivity, countUp, if_pos ⟨h0, by omega⟩, hadd]
      omega
    rw [List.replicate_succ, List.foldl_cons, checkStep, ih (d := d.tim3) (ha.step .tick)]
    · omega
    · omega
    · omega

/-- A device with sensitivity 255 in zone A and a check that finds an intrusion. -/
def slowest : Dev := checkStep (setAlarmSensitivity 0 255 blank) (.check 0 (level 4095))

/-- The intrusion is there at every check, is confirmed after 254 ticks and is not one tick later. -/
theorem not_staysConfirmed : ¬∀ (f : Zone) (c : Cond) (s : UInt8), c ≠ .rlx → StaysConfirmed f c s := by
  intro h
  have hset : ArmedWith 0 255 (setAlarmSensitivity 0 255 blank) := ⟨rfl, by decide⟩
  have ha : ArmedWith 0 255 slowest := hset.step _
  have hone : (slowest.verifyCnt 0 .invd).toNat = 1 := by decide +kernel
  have ha' := Run.foldl_inv (ArmedWith 0 255) (fun _ op hd => hd.step op)
    (List.replicate 254 .tick) slowest ha
  have hmax : (255 : UInt8).toNat = 255 := rfl
  have hcnt := verifyCnt_ticks (c := .invd) (by decide) 254 ha (by omega) (by omega)
  generalize (List.replicate 254 CheckOp.tick).foldl checkStep slowest = d at ha' hcnt
  rw [hone] at hcnt
  have hcnt : d.verifyCnt 0 .invd = 255 := UInt8.toNat_inj.mp hcnt
  have htick := h 0 .invd 255 (by decide) d [.tick] ha' (by rw [hcnt]; decide)
    (by simp [Run.steps, Present])
    (d, .tick) (by simp [Run.steps])
  rw [checkStep, tim3_wraps (by decide) ha' hcnt] at htick
  exact absurd htick (by decide)

end Dev

end VectorFence
