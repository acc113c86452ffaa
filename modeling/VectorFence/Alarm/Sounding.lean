import VectorFence.Alarm.Siren
import VectorFence.Station

/-! Whether a siren sounds while its alarm lasts. A stopped counter is -1, but the one of power-on
    is 0: the siren first counts a whole delay with its relay off, and looks at no alarm until then.

        power-on: 0 ──▶ 1 ──▶ … ──▶ limit ──▶ started or stopped, and from then on
        started (relay on) or stopped (-1); a stopped one is started by the next tick of an alarm -/

namespace VectorFence

namespace Siren

variable {limit : ℤ} {alarm : Bool} {s : Siren}

/-- The counter is stopped or the relay on. -/
def Settled (s : Siren) : Prop := s.cnt = -1 ∨ s.rl = true

/-- The count that power-on starts, with the relay off. -/
def FirstCount (s : Siren) : Prop := 0 ≤ s.cnt ∧ s.rl = false

theorem Settled.tick (h : s.Settled) : (s.tick limit alarm).Settled := by
  rw [Siren.tick]
  split_ifs
  · exact Or.inr rfl
  · exact h
  · exact Or.inr rfl
  · exact Or.inl rfl
  · exact h.imp_left fun hstop => absurd hstop (by assumption)

theorem FirstCount.running (h : s.FirstCount) : s.cnt ≠ -1 := by
  have h0 := h.1
  omega

theorem FirstCount.tick (h : s.FirstCount) (hlimit : s.cnt ≠ limit) :
    (s.tick limit alarm).FirstCount := by
  obtain ⟨h0, hrl⟩ := h
  rw [Siren.tick, if_neg (by omega), if_neg hlimit]
  refine ⟨?_, hrl⟩
  change 0 ≤ s.cnt + 1
  omega

/-- The first count ends with the tick that finds the counter at its limit. -/
theorem FirstCount.tick_limit (h : s.FirstCount) (hlimit : s.cnt = limit) :
    (s.tick limit alarm).Settled := by
  rw [Siren.tick, if_neg h.running, if_pos hlimit]
  split_ifs
  · exact Or.inr rfl
  · exact Or.inl rfl

/-- An alarm starts a settled siren or finds it on. -/
theorem Settled.sounds (h : s.Settled) : (s.tick limit true).rl = true := by
  rw [Siren.tick]
  simp only [if_true]
  split_ifs with hstop hlimit
  · rfl
  · rfl
  · exact h.resolve_left hstop

/-- In its first count the siren is started by an alarm only at the limit. -/
theorem FirstCount.sounds_iff (h : s.FirstCount) : (s.tick limit true).rl = true ↔ s.cnt = limit := by
  rw [Siren.tick, if_neg h.running]
  simp only [if_true]
  split_ifs with hlimit
  · exact iff_of_true rfl hlimit
  · exact iff_of_false (by simp [h.2]) hlimit

end Siren

namespace Dev

open Alarm AlarmWord

variable {d : Dev} {f : Zone}

/-- What the sirens go through, changes of `config_code` included. -/
inductive SoundOp where
  | siren (op : SirenOp)
  | setConfigCode (value : BitVec 8)

def soundStep (d : Dev) : SoundOp → Dev
  | .siren op => d.sirenStep op
  | .setConfigCode value => d.setConfigCode value

/-- The counters and the relays when the device is switched on. -/
def sirenPowerOn (d : Dev) : Dev :=
  { d with alarm := { d.alarm with alarmingCnt := fun _ => 0, rl := fun _ => false } }

/-- The operation ends the first count of a zone: its siren is reset, or a tick finds the counter at the
    delay. -/
def EndsCount (f : Zone) (d : Dev) : SoundOp → Prop
  | .siren .tick => d.alarm.alarmingCnt f = d.sirenLimit f
  | .siren (.reset g) => f = g
  | _ => False

/-- The first count of a zone has ended in a run. -/
def CountEnded (f : Zone) (d : Dev) (ops : List SoundOp) : Prop :=
  ∃ p ∈ Run.steps soundStep d ops, EndsCount f p.1 p.2

theorem soundStep_siren (op : SoundOp) : (d.soundStep op).siren f =
    match op with
    | .siren .tick => (d.siren f).tick (d.sirenLimit f) (d.sounds f)
    | .siren (.reset g) => if f = g then Siren.silent else d.siren f
    | _ => d.siren f := by
  cases op with
  | setConfigCode value => rfl
  | siren op =>
    cases op with
    | tick => exact tim5_siren d f
    | reset g =>
      simp only [soundStep, sirenStep, siren, Alarm.removeAlarmRL, Function.update_apply, Siren.silent]
      split_ifs <;> rfl
    | modifyDelay fieldNum alarmDelay =>
      simp only [soundStep, sirenStep, modifyAlarmDelay]
      split <;> rfl
    | _ => rfl

theorem soundStep_settled (h : (d.siren f).Settled) (op : SoundOp) :
    ((d.soundStep op).siren f).Settled := by
  rw [soundStep_siren]
  split
  · exact h.tick
  · split_ifs
    · exact Or.inl rfl
    · exact h
  · exact h

theorem soundStep_firstCount (h : (d.siren f).FirstCount) (op : SoundOp) :
    (EndsCount f d op → ((d.soundStep op).siren f).Settled) ∧
      (¬EndsCount f d op → ((d.soundStep op).siren f).FirstCount) := by
  rw [soundStep_siren]
  cases op with
  | setConfigCode value => exact ⟨False.elim, fun _ => h⟩
  | siren op =>
    cases op with
    | tick => exact ⟨h.tick_limit, h.tick⟩
    | reset g =>
      refine ⟨fun hend => ?_, fun hend => ?_⟩
      · exact Or.inl (congrArg Siren.cnt (if_pos hend))
      · simp only [if_neg (show ¬f = g from hend)]
        exact h
    | _ => exact ⟨False.elim, fun _ => h⟩

theorem countEnded_concat (ops : List SoundOp) (op : SoundOp) :
    CountEnded f d (ops ++ [op]) ↔ CountEnded f d ops ∨ EndsCount f (ops.foldl soundStep d) op := by
  simp only [CountEnded, Run.steps_append, Run.steps, List.mem_append, List.mem_singleton, or_and_right,
    exists_or, exists_eq_left]

/-- In a run from power-on a siren is in its first count until that ends, and settled from then on. -/
theorem siren_run (d : Dev) (f : Zone) (ops : List SoundOp) :
    (CountEnded f d.sirenPowerOn ops → ((ops.foldl soundStep d.sirenPowerOn).siren f).Settled) ∧
    (¬CountEnded f d.sirenPowerOn ops → ((ops.foldl soundStep d.sirenPowerOn).siren f).FirstCount) := by
  induction ops using List.reverseRecOn with
  | nil =>
    refine ⟨?_, fun _ => ⟨le_rfl, rfl⟩⟩
    rintro ⟨p, hp, -⟩
    simp [Run.steps] at hp
  | append_singleton ops op ih =>
    rw [countEnded_concat, List.foldl_append, List.foldl_cons, List.foldl_nil]
    by_cases hended : CountEnded f d.sirenPowerOn ops
    · have hafter := soundStep_settled (ih.1 hended) op
      exact ⟨fun _ => hafter, fun h => absurd (Or.inl hended) h⟩
    · obtain ⟨hend, hgo⟩ := soundStep_firstCount (ih.2 hended) op
      exact ⟨fun h => hend (h.resolve_left hended), fun h => hgo fun hop => h (Or.inr hop)⟩

/-- After every tick of a run from power-on, the siren of a zone with an alarm is on exactly when the
    first count of the zone has ended, at the latest with this tick. -/
theorem rl_on_iff (d : Dev) (f : Zone) (ops : List SoundOp) :
    ((ops.foldl soundStep d.sirenPowerOn).sounds f = true →
      (ops.foldl soundStep d.sirenPowerOn).tim5.alarm.rl f = true) ↔
    ((ops.foldl soundStep d.sirenPowerOn).sounds f = true →
      CountEnded f d.sirenPowerOn (ops ++ [.siren .tick])) := by
  refine forall_congr' fun hsounds => ?_
  have hrl : (ops.foldl soundStep d.sirenPowerOn).tim5.alarm.rl f =
      ((ops.foldl soundStep d.sirenPowerOn).tim5.siren f).rl := rfl
  rw [countEnded_concat, hrl, tim5_siren, hsounds]
  obtain ⟨hsettled, hfirst⟩ := siren_run d f ops
  by_cases hended : CountEnded f d.sirenPowerOn ops
  · exact iff_of_true (hsettled hended).sounds (Or.inl hended)
  · rw [(hfirst hended).sounds_iff, or_iff_right hended]
    rfl

/-- An intrusion into zone A at the first tick after power-on is not heard. -/
theorem not_rl_on : ¬ ∀ (d : Dev) (f : Zone) (ops : List SoundOp),
    (ops.foldl soundStep d.sirenPowerOn).sounds f = true →
      (ops.foldl soundStep d.sirenPowerOn).tim5.alarm.rl f = true := by
  intro h
  have hon := h blank 0 [.siren (.setAlarm aInvdMask)] (by decide +kernel)
  revert hon
  decide +kernel

end Dev

end VectorFence
