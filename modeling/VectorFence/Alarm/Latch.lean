import VectorFence.Alarm.Siren
import VectorFence.Lcd.Basic
import VectorFence.Station

/-! The latched alarm word. `ALARM_STATE_DELAY` keeps an alarm that has gone until a siren is reset;
    bit 2 of `config_code` chooses the word the panel shows.

        Set_Alarm_State_Util_Clear ──▶ ALARM_STATE        ◀── CLEAR_ALARM_STATE
                                └────▶ ALARM_STATE_DELAY  ◀── ALARM_STATE at every reset

    Two things go wrong with the copy. An alarm set while bit 2 is set is in the first word only, and is
    not shown once the bit is cleared. And the reset of one zone rewrites the whole word, the latched
    alarms of the other zone included. -/

namespace VectorFence

open Alarm AlarmWord

/-! ### What the panel shows -/

namespace Alarm

/-- Every active alarm is latched. -/
def AllLatched (s : Alarm) : Prop :=
  ∀ j, getAlarmState s.alarmState j = true → getAlarmState s.alarmStateDelay j = true

/-- Every active alarm is shown. -/
def Visible (s : Alarm) : Prop :=
  ∀ j, getAlarmState s.alarmState j = true → getAlarmState s.shown j = true

theorem visible_iff (s : Alarm) : s.Visible ↔ (s.configBit 2 = false → s.AllLatched) := by
  rw [Visible, shown]
  cases s.configBit 2 with
  | true => simp
  | false => simp [AllLatched]

theorem AllLatched.set {s : Alarm} (h : s.AllLatched) (hc : s.configBit 2 = false) (mask : ℕ) :
    (setAlarmStateUtilClear mask s).AllLatched := by
  intro j hj
  simp only [setAlarmStateUtilClear, hc, Bool.false_eq_true, if_false, getAlarmState, setAlarmState,
    BitVec.getLsbD_or, Bool.or_eq_true] at hj ⊢
  exact hj.imp_left (h j)

theorem AllLatched.clear {s : Alarm} (h : s.AllLatched) (mask : ℕ) : (s.clear mask).AllLatched := by
  intro j hj
  simp only [Alarm.clear, getAlarmState, clearAlarmState, BitVec.getLsbD_and, Bool.and_eq_true] at hj
  exact h j hj.1

theorem Visible.set {s : Alarm} (h : s.Visible) (mask : ℕ) :
    (setAlarmStateUtilClear mask s).Visible := by
  rw [visible_iff] at h ⊢
  exact fun hc => (h hc).set hc mask

theorem Visible.clear {s : Alarm} (h : s.Visible) (mask : ℕ) : (s.clear mask).Visible := by
  rw [visible_iff] at h ⊢
  exact fun hc => (h hc).clear mask

/-- A reset latches exactly what is active. -/
theorem visible_removeAlarmRL (s : Alarm) (f : Zone) : (s.removeAlarmRL f).Visible := by
  rw [visible_iff]
  exact fun _ _ hj => hj

end Alarm

namespace Station

/-- What writes the two words or chooses between them. -/
inductive LatchOp where
  | set (mask : ℕ)
  | clear (mask : ℕ)
  | switch (pins : Fin 2 → Bool) (swNum : Fin 2)
  | reset (f : Zone)
  | setConfigCode (value : BitVec 8)

def latchStep (st : Station) : LatchOp → Station
  | .set mask => st.onDev fun d => { d with alarm := setAlarmStateUtilClear mask d.alarm }
  | .clear mask => st.onDev fun d => { d with alarm := d.alarm.clear mask }
  | .switch pins swNum => st.updateSWAlarmState pins swNum
  | .reset f => st.onDev (Dev.resetSiren f)
  | .setConfigCode value => st.onDev (Dev.setConfigCode value)

/-- Bit 2 is not cleared while an active alarm is not latched. -/
def LatchOk (st : Station) : LatchOp → Prop
  | .setConfigCode value =>
      st.dev.alarm.configBit 2 = true → value.getLsbD 2 = false → st.dev.alarm.AllLatched
  | _ => True

/-- An operation keeps the alarms visible exactly under its condition. -/
theorem latchStep_visible_iff {st : Station} (h : st.dev.alarm.Visible) (op : LatchOp) :
    (latchStep st op).dev.alarm.Visible ↔ LatchOk st op := by
  cases op with
  | set mask => exact iff_of_true (h.set mask) trivial
  | clear mask => exact iff_of_true (h.clear mask) trivial
  | switch pins swNum =>
    refine iff_of_true ?_ trivial
    simp only [latchStep, updateSWAlarmState]
    split_ifs
    · exact h.set _
    · exact h.clear _
  | reset f => exact iff_of_true (visible_removeAlarmRL _ f) trivial
  | setConfigCode value =>
    rw [visible_iff] at h ⊢
    -- the words stay, so with the bit clear before as well nothing changes
    have hbit : (latchStep st (.setConfigCode value)).dev.alarm.configBit 2 = value.getLsbD 2 := rfl
    rw [hbit]
    constructor
    · exact fun hv _ hc => hv hc
    · intro hok hc
      cases hb : st.dev.alarm.configBit 2 with
      | true => exact hok hb hc
      | false => exact h hb

/-- Over a run the active alarms are shown in every state exactly when bit 2 is never cleared while
    one of them is not latched. -/
theorem latch_visible {st : Station} (h : st.dev.alarm.Visible) (ops : List LatchOp) :
    (∀ p ∈ Run.steps latchStep st ops, (latchStep p.1 p.2).dev.alarm.Visible) ↔
      ∀ p ∈ Run.steps latchStep st ops, LatchOk p.1 p.2 := by
  have hstep : ∀ (st : Station) op, st.dev.alarm.Visible →
      ((latchStep st op).dev.alarm.Visible ↔ LatchOk st op) := fun _ op h => latchStep_visible_iff h op
  exact Run.steps_iff _ _ hstep ops st h

/-- An alarm while bit 2 is set, then the bit is cleared. -/
def hiddenRun : List LatchOp := [.setConfigCode 0x04, .set aInvdMask, .setConfigCode 0x00]

/-- A reset before the bit is cleared latches the alarm. -/
def shownRun : List LatchOp := [.setConfigCode 0x04, .set aInvdMask, .reset 0, .setConfigCode 0x00]

theorem visible_blank : blank.dev.alarm.Visible := by
  intro j hj
  simp [blank, Dev.blank, Dev.factory, Alarm.default, getAlarmState] at hj

theorem allLatched_iff (s : Alarm) : (∀ j : Fin 16, getAlarmState s.alarmState j = true →
    getAlarmState s.alarmStateDelay j = true) ↔ s.AllLatched := by
  constructor
  · intro h j hj
    by_cases hlt : j < 16
    · exact h ⟨j, hlt⟩ hj
    · rw [getAlarmState, BitVec.getLsbD_of_ge _ _ (by omega)] at hj
      exact absurd hj Bool.false_ne_true
  · exact fun h j => h j

instance (s : Alarm) : Decidable s.AllLatched := decidable_of_iff _ (allLatched_iff s)

instance (st : Station) : ∀ op, Decidable (LatchOk st op)
  | .setConfigCode _ => by unfold LatchOk; infer_instance
  | .set _ | .clear _ | .switch .. | .reset _ => by unfold LatchOk; infer_instance

theorem latch_visible_shown : blank.dev.alarm.Visible ∧
    ∀ p ∈ Run.steps latchStep blank shownRun, (latchStep p.1 p.2).dev.alarm.Visible :=
  ⟨visible_blank, (latch_visible visible_blank shownRun).mpr (by decide +kernel)⟩

/-- The intrusion is active and the panel shows none. -/
theorem not_latch_visible : ¬ ∀ ops : List LatchOp,
    ∀ p ∈ Run.steps latchStep blank ops, (latchStep p.1 p.2).dev.alarm.Visible := by
  intro h
  have hrun := h hiddenRun (latchStep (latchStep blank (.setConfigCode 0x04)) (.set aInvdMask),
    .setConfigCode 0x00) (by simp [hiddenRun, Run.steps])
  have hbit := hrun aInvdMask (by decide +kernel)
  revert hbit
  decide +kernel

end Station

/-! ### The latch of the other zone -/

namespace Dev

variable {d : Dev} {f g : Zone} {c : Cond}

/-- The alarm of a condition is latched. -/
def latched (d : Dev) (f : Zone) (c : Cond) : Bool := getAlarmState d.alarm.alarmStateDelay (mask f c)

/-- The delay of a siren has run out and its alarms have gone. -/
def Expires (d : Dev) (f : Zone) : Prop :=
  d.alarm.alarmingCnt f ≠ -1 ∧ d.alarm.alarmingCnt f = d.sirenLimit f ∧ d.sounds f = false

/-- The operation resets the siren of the zone. -/
def Resets (d : Dev) (f : Zone) : SirenOp → Prop
  | .tick => d.Expires f
  | .reset g => f = g
  | _ => False

/-- While the siren sounds the latch of the zone is kept. -/
def KeepsLatch (d : Dev) (f : Zone) (op : SirenOp) : Prop :=
  d.alarm.rl f = true → (sirenStep d op).alarm.rl f = true →
    ∀ c, d.latched f c = true → (sirenStep d op).latched f c = true

/-- The siren of the other zone is not reset while an alarm of this zone is latched that has gone. -/
def LatchApart (d : Dev) (f : Zone) (op : SirenOp) : Prop :=
  Resets d (1 - f) op → ¬Resets d f op → d.alarm.rl f = true →
    ∀ c, d.latched f c = true → d.last f c = true

/-- The handler's part for a zone rewrites the latch when the siren expires, and only then. -/
theorem tim5Zone_delay (delay : UInt16) (f : Zone) (s : Alarm) :
    (tim5Zone delay f s).alarmStateDelay =
      if s.alarmingCnt f ≠ -1 ∧ s.alarmingCnt f = delay.toNat * 10 ∧
          s.alarmState &&& s.sirenMask f = 0 then s.alarmState
      else s.alarmStateDelay := by
  rw [tim5Zone]
  rcases eq_or_ne (s.alarmingCnt f) (-1) with h1 | h1
  · simp only [h1, ne_eq, not_true, false_and, if_true, if_false]
    split_ifs <;> rfl
  · rw [if_neg h1]
    by_cases h2 : s.alarmingCnt f = delay.toNat * 10
    · by_cases h3 : s.alarmState &&& s.sirenMask f = 0
      · rw [if_pos h2, if_neg (not_not.mpr h3), if_pos ⟨h1, h2, h3⟩]
        rfl
      · rw [if_pos h2, if_pos h3, if_neg (by tauto)]
        rfl
    · rw [if_neg h2, if_neg (by tauto)]

theorem expires_iff : d.Expires f ↔ d.alarm.alarmingCnt f ≠ -1 ∧
    d.alarm.alarmingCnt f = (d.para.alarmDelay f).toNat * 10 ∧
    d.alarm.alarmState &&& d.alarm.sirenMask f = 0 := by
  rw [Expires, sirenLimit, sounds, decide_eq_false_iff_not, not_not]

instance (d : Dev) (f : Zone) : Decidable (d.Expires f) := by unfold Expires; infer_instance

/-- A tick makes the two words equal when one of the sirens expires. -/
theorem tim5_delay (d : Dev) : d.tim5.alarm.alarmStateDelay =
    if d.Expires 0 ∨ d.Expires 1 then d.alarm.alarmState else d.alarm.alarmStateDelay := by
  obtain ⟨hs, hc, hz⟩ := tim5Zone_frame (d.para.alarmDelay 0) 0 d.alarm
  have hcnt := (hz 1 (by decide)).1
  have h0 := tim5Zone_delay (d.para.alarmDelay 0) 0 d.alarm
  have h1 := tim5Zone_delay (d.para.alarmDelay 1) 1 (tim5Zone (d.para.alarmDelay 0) 0 d.alarm)
  rw [sirenMask_congr hc 1, hs, hcnt] at h1
  rw [← if_congr expires_iff rfl rfl] at h0 h1
  rw [tim5, h1, h0]
  by_cases he : d.Expires 1
  · rw [if_pos he, if_pos (Or.inr he)]
  · rw [if_neg he]
    exact if_congr (or_iff_left he).symm rfl rfl

/-- A siren that expires is off. -/
theorem tim5_rl_of_expires (h : d.Expires f) : d.tim5.alarm.rl f = false := by
  obtain ⟨hstop, hlimit, hquiet⟩ := h
  have hcnt : (d.siren f).cnt = d.alarm.alarmingCnt f := rfl
  have hsiren := tim5_siren d f
  rw [Siren.tick, hquiet, hcnt, if_neg hstop, if_pos hlimit] at hsiren
  exact congrArg Siren.rl hsiren

/-- A siren that sounds and does not expire goes on sounding. -/
theorem tim5_rl_of_not_expires (h : ¬d.Expires f) (hrl : d.alarm.rl f = true) :
    d.tim5.alarm.rl f = true := by
  have hsiren := congrArg Siren.rl (tim5_siren d f)
  have hcnt : (d.siren f).cnt = d.alarm.alarmingCnt f := rfl
  have hon : (d.siren f).rl = true := hrl
  have hafter : (d.tim5.siren f).rl = d.tim5.alarm.rl f := rfl
  rw [← hafter, hsiren, Siren.tick]
  cases hs : d.sounds f with
  | true =>
    simp only [if_true]
    split_ifs
    · rfl
    · rfl
    · exact hon
  | false =>
    simp only [Bool.false_eq_true, if_false, hcnt]
    split_ifs with hstop hlimit
    · exact hon
    · exact absurd ⟨hstop, hlimit, hs⟩ h
    · exact hon

/-- Setting a bit takes none out of the latch. -/
theorem latched_set (m : ℕ) (h : d.latched f c = true) :
    (sirenStep d (.setAlarm m)).latched f c = true := by
  rw [latched, getAlarmState] at h
  simp only [latched, sirenStep, setAlarmStateUtilClear, getAlarmState]
  split_ifs
  · exact h
  · rw [setAlarmState, BitVec.getLsbD_or, h, Bool.true_or]

theorem tim5_latched (f : Zone) (c : Cond) : d.tim5.latched f c =
    if d.Expires (1 - f) ∨ d.Expires f then d.last f c else d.latched f c := by
  have hor : d.Expires 0 ∨ d.Expires 1 ↔ d.Expires (1 - f) ∨ d.Expires f := by
    rcases zone_cases f with rfl | rfl
    · exact or_comm
    · exact Iff.rfl
  rw [latched, tim5_delay, if_congr hor rfl rfl]
  split_ifs <;> rfl

/-- A step keeps the latch of a sounding siren exactly under its condition. -/
theorem keepsLatch_iff (op : SirenOp) : KeepsLatch d f op ↔ LatchApart d f op := by
  cases op with
  | tick =>
    simp only [KeepsLatch, LatchApart, Resets, sirenStep, tim5_latched]
    by_cases hself : d.Expires f
    · have hoff := tim5_rl_of_expires hself
      exact iff_of_true (fun _ h => by simp [hoff] at h) (fun _ h => absurd hself h)
    · simp only [hself, or_false, not_false_iff, true_implies]
      by_cases hpeer : d.Expires (1 - f)
      · simp only [hpeer, if_true, true_implies]
        exact ⟨fun h hrl => h hrl (tim5_rl_of_not_expires hself hrl), fun h hrl _ => h hrl⟩
      · simp only [hpeer, if_false, false_implies, iff_true]
        exact fun _ _ _ h => h
  | reset g =>
    simp only [KeepsLatch, LatchApart, Resets]
    rcases eq_or_ne f g with rfl | hg
    · refine iff_of_true (fun _ h => ?_) (fun _ h => absurd rfl h)
      simp [sirenStep, Alarm.removeAlarmRL] at h
    · have hpeer : 1 - f = g := by
        rcases zone_cases f with rfl | rfl <;> rcases zone_cases g with rfl | rfl <;>
          first | rfl | exact absurd rfl hg
      have hrl : (sirenStep d (.reset g)).alarm.rl f = d.alarm.rl f := by
        simp [sirenStep, Alarm.removeAlarmRL, hg]
      rw [hrl]
      exact ⟨fun h _ _ hon => h hon hon, fun h hon _ => h hpeer hg hon⟩
  | modifyDelay fieldNum alarmDelay =>
    refine iff_of_true (fun _ _ c h => ?_) (fun h => h.elim)
    rw [sirenStep, modifyAlarmDelay]
    split <;> exact h
  | setAlarm m => exact iff_of_true (fun _ _ _ h => latched_set m h) (fun h => h.elim)
  | _ => exact iff_of_true (fun _ _ _ h => h) (fun h => h.elim)

/-- Over a run every step keeps the latches of the sounding sirens exactly when no zone is reset
    while the other one sounds for a latched alarm that has gone; and then an alarm stays latched as
    long as the siren of its zone stays on. -/
theorem latch_kept (ops : List SirenOp) :
    ((∀ p ∈ Run.steps sirenStep d ops, ∀ f, KeepsLatch p.1 f p.2) ↔
      ∀ p ∈ Run.steps sirenStep d ops, ∀ f, LatchApart p.1 f p.2) ∧
    ∀ f c, (∀ p ∈ Run.steps sirenStep d ops, LatchApart p.1 f p.2) →
      d.latched f c = true → d.alarm.rl f = true →
      (∀ p ∈ Run.steps sirenStep d ops, (sirenStep p.1 p.2).alarm.rl f = true) →
      (ops.foldl sirenStep d).latched f c = true := by
  refine ⟨forall₂_congr fun p _ => forall_congr' fun f => keepsLatch_iff p.2, ?_⟩
  intro f c hapart hlatched hon hstays
  have hstep : ∀ (d : Dev) op, d.latched f c = true ∧ d.alarm.rl f = true →
      LatchApart d f op ∧ (sirenStep d op).alarm.rl f = true →
      (sirenStep d op).latched f c = true ∧ (sirenStep d op).alarm.rl f = true :=
    fun d op hd hop => ⟨(keepsLatch_iff op).mpr hop.1 hd.2 hop.2 c hd.1, hop.2⟩
  exact (Run.foldl_inv_of_steps _ hstep ops d ⟨hlatched, hon⟩ fun p hp =>
    ⟨hapart p hp, hstays p hp⟩).1

instance (d : Dev) (f : Zone) : ∀ op, Decidable (Resets d f op)
  | .tick | .reset _ => by unfold Resets; infer_instance
  | .setAlarm _ | .clearAlarm _ | .assign .. | .setDelay .. | .modifyDelay .. => by
      unfold Resets; infer_instance

instance (p : Cond → Prop) [DecidablePred p] : Decidable (∀ c, p c) :=
  decidable_of_iff (p .invd ∧ p .opn ∧ p .rlx) <| by
    constructor
    · rintro ⟨h0, h1, h2⟩ (_ | _ | _) <;> assumption
    · exact fun h => ⟨h _, h _, h _⟩

instance (d : Dev) (f : Zone) (op : SirenOp) : Decidable (LatchApart d f op) := by
  unfold LatchApart; infer_instance

/-- An intrusion into zone B starts its siren. -/
def intrusionB : List SirenOp := [.reset 1, .setAlarm bInvdMask, .tick]

/-- Zone A is reset while the intrusion lasts, and only then it goes. -/
theorem latch_kept_intrusionB :
    (([.reset 0, .clearAlarm bInvdMask, .tick] : List SirenOp).foldl sirenStep
      (intrusionB.foldl sirenStep blank)).latched 1 .invd = true := by
  refine (latch_kept (d := intrusionB.foldl sirenStep blank) _).2 1 .invd ?_ ?_ ?_ ?_ <;>
    decide +kernel

/-- The intrusion goes and zone A is reset: the latched alarm is lost while the siren of zone B
    sounds. -/
theorem not_latch_kept : blank.alarm.configBit 2 = false ∧
    ¬ ∀ (before after : List SirenOp) (f : Zone) (c : Cond),
      (before.foldl sirenStep blank).latched f c = true →
      (before.foldl sirenStep blank).alarm.rl f = true →
      (∀ p ∈ Run.steps sirenStep (before.foldl sirenStep blank) after,
        (sirenStep p.1 p.2).alarm.rl f = true) →
      (after.foldl sirenStep (before.foldl sirenStep blank)).latched f c = true := by
  refine ⟨rfl, fun h => ?_⟩
  have hlost := h intrusionB [.clearAlarm bInvdMask, .reset 0] 1 .invd (by decide +kernel)
    (by decide +kernel) (by decide +kernel)
  revert hlost
  decide +kernel

end Dev

end VectorFence
