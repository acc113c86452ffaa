import VectorFence.Device
import VectorFence.Lib.Run

/-! The siren timer. A siren starts with `alarmingCnt = 1` and is looked at again when the counter
    equals `alarm_delay * 10`; until then every tick adds one.

        -1 ──alarm──▶ 1 ──▶ 2 ──▶ … ──▶ limit ──no alarm──▶ -1
                      ▲─────────alarm────┘

    The test is an equality, so it works only as long as the counter has not passed the limit. `Siren`
    is the timer of one zone on its own; `tim5_siren` says that the interrupt handler runs two of
    them. -/

namespace VectorFence

/-- The siren of one zone: `alarmingCnt` and the relay. -/
structure Siren where
  cnt : ℤ
  rl : Bool
  deriving DecidableEq, Repr

namespace Siren

variable {limit : ℤ} {s : Siren} {alarm : Bool}

def start : Siren := ⟨1, true⟩

def silent : Siren := ⟨-1, false⟩

/-- One tick of the timer, `alarm` telling whether an alarm of the zone is present. -/
def tick (limit : ℤ) (alarm : Bool) (s : Siren) : Siren :=
  if s.cnt = -1 then if alarm then start else s
  else if s.cnt = limit then if alarm then start else silent
  else { s with cnt := s.cnt + 1 }

/-- The counter is stopped or has not passed the limit. -/
def InBound (limit : ℤ) (s : Siren) : Prop := s.cnt = -1 ∨ 0 ≤ s.cnt ∧ s.cnt ≤ limit

/-- A stopped siren does not sound. -/
def Released (s : Siren) : Prop := s.cnt = -1 → s.rl = false

theorem start_inBound_iff : InBound limit start ↔ 1 ≤ limit := by
  simp [InBound, start]

theorem silent_inBound : InBound limit silent := Or.inl rfl

/-- A tick keeps the bound unless it starts a siren whose limit is zero. -/
theorem tick_inBound_iff (h : s.InBound limit) :
    (s.tick limit alarm).InBound limit ↔
      (alarm = true → s.cnt = -1 ∨ s.cnt = limit → 1 ≤ limit) := by
  rw [tick]
  rcases h with h | ⟨h0, hl⟩
  · rw [if_pos h]
    cases alarm with
    | true => simp [start_inBound_iff, h]
    | false => simp [InBound, h]
  · rw [if_neg (by omega)]
    rcases eq_or_ne s.cnt limit with he | he
    · rw [if_pos he]
      cases alarm with
      | true => simp [start_inBound_iff, he]
      | false => simp [silent_inBound]
    · rw [if_neg he]
      refine iff_of_true (Or.inr ⟨?_, ?_⟩) ?_
      · show 0 ≤ s.cnt + 1
        omega
      · show s.cnt + 1 ≤ limit
        omega
      · rintro - (h | h)
        · omega
        · exact absurd h he

theorem Released.tick (h : s.Released) (h0 : -1 ≤ s.cnt) : (s.tick limit alarm).Released := by
  rw [Siren.tick]
  split_ifs with h1 ha
  · simp [Released, start]
  · exact h
  · simp [Released, start]
  · simp [Released, silent]
  · intro hc
    simp only at hc
    omega

theorem InBound.neg_one_le (h : s.InBound limit) : -1 ≤ s.cnt := by
  rcases h with h | h <;> omega

/-- Without an alarm the expiry test is reached, and from then on the siren is silent. -/
theorem tick_expires : ∀ (n : ℕ) {s : Siren}, s.InBound limit → s.Released →
    s.cnt = -1 ∨ limit < s.cnt + n → (tick limit false)^[n] s = silent
  | 0, s, hb, hr, hn => by
      have hc : s.cnt = -1 := by rcases hb with h | ⟨-, h⟩ <;> rcases hn with h' | h' <;> omega
      rw [Function.iterate_zero, id, silent, ← hc, ← hr hc]
  | n + 1, s, hb, hr, hn => by
      rw [Function.iterate_succ_apply]
      refine tick_expires n ((tick_inBound_iff hb).mpr (by simp)) (hr.tick hb.neg_one_le) ?_
      rw [tick]
      simp only [Bool.false_eq_true, if_false]
      split_ifs with h1 h2
      · exact Or.inl h1
      · exact Or.inl rfl
      · right
        rcases hn with h | h
        · exact absurd h h1
        · push_cast at h ⊢
          omega

/-- Past its limit the counter runs on, alarm or not, and the relay stays as it is. -/
theorem tick_past (h : limit < s.cnt) (h0 : 0 ≤ s.cnt) : ∀ n : ℕ,
    (tick limit alarm)^[n] s = { s with cnt := s.cnt + n }
  | 0 => by simp
  | n + 1 => by
      rw [Function.iterate_succ_apply', tick_past h h0 n, tick]
      simp only
      rw [if_neg (by omega), if_neg (by omega)]
      push_cast
      rw [Int.add_assoc]

end Siren

namespace Dev

open Alarm AlarmWord

variable {d : Dev} {i : Zone}

/-- The siren of a zone. -/
def siren (d : Dev) (i : Zone) : Siren := ⟨d.alarm.alarmingCnt i, d.alarm.rl i⟩

/-- `alarm_delay[i] * 10`. -/
def sirenLimit (d : Dev) (i : Zone) : ℤ := (d.para.alarmDelay i).toNat * 10

/-- `(ALARM_STATE & …) != 0x00`. -/
def sounds (d : Dev) (i : Zone) : Bool := decide (d.alarm.alarmState &&& d.alarm.sirenMask i ≠ 0)

/-- What can happen to the sirens: a tick of timer 5, an alarm bit set or cleared, a manual reset, and
    the ways of changing a delay. `assign` is the web handler and the LCD editor, which write the
    variable and store it later; `modifyDelay` is the command of the management station. -/
inductive SirenOp where
  | tick
  | setAlarm (mask : ℕ)
  | clearAlarm (mask : ℕ)
  | reset (f : Zone)
  | assign (i : Zone) (almDly : UInt16)
  | setDelay (i : Zone) (almDly : UInt16)
  | modifyDelay (fieldNum : UInt8) (alarmDelay : UInt16)

def sirenStep (d : Dev) : SirenOp → Dev
  | .tick => d.tim5
  | .setAlarm mask => { d with alarm := setAlarmStateUtilClear mask d.alarm }
  | .clearAlarm mask => { d with alarm := d.alarm.clear mask }
  | .reset f => { d with alarm := removeAlarmRL f d.alarm }
  | .assign i almDly => d.assignAlarmDelay i almDly
  | .setDelay i almDly => d.setAlarmDelay i almDly
  | .modifyDelay fieldNum alarmDelay => d.modifyAlarmDelay fieldNum alarmDelay

/-- The delay an operation gives to zone `i`. -/
def newDelay (d : Dev) (i : Zone) : SirenOp → Option UInt16
  | .assign j almDly | .setDelay j almDly => if i = j then some almDly else none
  | .modifyDelay fieldNum alarmDelay =>
      if d.zoneOf fieldNum = some i then some alarmDelay else none
  | _ => none

/-! ### The handler runs two sirens -/

theorem tim5Zone_siren (delay : UInt16) (f : Zone) (s : Alarm) :
    (⟨(tim5Zone delay f s).alarmingCnt f, (tim5Zone delay f s).rl f⟩ : Siren) =
      Siren.tick (delay.toNat * 10) (decide (s.alarmState &&& s.sirenMask f ≠ 0))
        ⟨s.alarmingCnt f, s.rl f⟩ := by
  rw [tim5Zone, Siren.tick]
  simp only [decide_eq_true_eq]
  split_ifs <;> simp [alarmRL, removeAlarmRL, Siren.start, Siren.silent]

/-- The handler's part for one zone leaves the other siren and all alarm bits alone. -/
theorem tim5Zone_frame (delay : UInt16) (f : Zone) (s : Alarm) :
    (tim5Zone delay f s).alarmState = s.alarmState ∧
    (tim5Zone delay f s).configCode = s.configCode ∧
    ∀ i ≠ f, (tim5Zone delay f s).alarmingCnt i = s.alarmingCnt i ∧
    (tim5Zone delay f s).rl i = s.rl i := by
  rw [tim5Zone]
  split_ifs <;> refine ⟨rfl, rfl, fun i hi => ?_⟩ <;> simp [alarmRL, removeAlarmRL, hi]

theorem sirenMask_congr {s s' : Alarm} (h : s.configCode = s'.configCode) (f : Zone) :
    s.sirenMask f = s'.sirenMask f := by
  have hb : s.configBit 3 = s'.configBit 3 := by rw [configBit, configBit, h]
  rw [sirenMask, sirenMask, hb]

theorem tim5_siren (d : Dev) (i : Zone) :
    d.tim5.siren i = (d.siren i).tick (d.sirenLimit i) (d.sounds i) := by
  obtain ⟨hs, hc, hz⟩ := tim5Zone_frame (d.para.alarmDelay 0) 0 d.alarm
  obtain ⟨-, -, hz'⟩ := tim5Zone_frame (d.para.alarmDelay 1) 1
    (tim5Zone (d.para.alarmDelay 0) 0 d.alarm)
  rcases zone_cases i with rfl | rfl
  · obtain ⟨h1, h2⟩ := hz' 0 (by decide)
    rw [siren, tim5]
    simp only [h1, h2]
    exact tim5Zone_siren ..
  · obtain ⟨h1, h2⟩ := hz 1 (by decide)
    rw [siren, tim5]
    simp only [tim5Zone_siren, hs, sirenMask_congr hc 1, h1, h2]
    rfl

@[simp] theorem tim5_sounds (d : Dev) (i : Zone) : d.tim5.sounds i = d.sounds i := by
  obtain ⟨hs, hc, -⟩ := tim5Zone_frame (d.para.alarmDelay 0) 0 d.alarm
  obtain ⟨hs', hc', -⟩ := tim5Zone_frame (d.para.alarmDelay 1) 1
    (tim5Zone (d.para.alarmDelay 0) 0 d.alarm)
  have hm : d.tim5.alarm.sirenMask i = d.alarm.sirenMask i := sirenMask_congr (hc'.trans hc) i
  have hst : d.tim5.alarm.alarmState = d.alarm.alarmState := hs'.trans hs
  rw [sounds, sounds, hm, hst]

@[simp] theorem tim5_limit (d : Dev) (i : Zone) : d.tim5.sirenLimit i = d.sirenLimit i := rfl

theorem tim5_iterate (i : Zone) : ∀ (n : ℕ) (d : Dev),
    (tim5^[n] d).siren i = (Siren.tick (d.sirenLimit i) (d.sounds i))^[n] (d.siren i)
  | 0, _ => rfl
  | n + 1, d => by
      rw [Function.iterate_succ_apply, tim5_iterate i n, tim5_siren, tim5_limit, tim5_sounds,
        Function.iterate_succ_apply]

/-! ### The bound -/

/-- Both counters are stopped or within their delays. -/
def Bounded (d : Dev) : Prop := ∀ i, (d.siren i).InBound (d.sirenLimit i)

/-- A stopped siren does not sound, in both zones. -/
def Released (d : Dev) : Prop := ∀ i, (d.siren i).Released

/-- When an operation keeps the counter of zone `i` in its bound: no siren starts with a delay of
    zero, and no delay is set below a counter that is running. -/
def SirenOk (d : Dev) (i : Zone) : SirenOp → Prop
  | .tick => d.sounds i = true → d.alarm.alarmingCnt i = -1 ∨
      d.alarm.alarmingCnt i = d.sirenLimit i → 1 ≤ d.para.alarmDelay i
  | op => ∀ almDly ∈ d.newDelay i op,
      d.alarm.alarmingCnt i = -1 ∨ d.alarm.alarmingCnt i ≤ almDly.toNat * 10

theorem one_le_sirenLimit_iff (d : Dev) (i : Zone) :
    1 ≤ d.sirenLimit i ↔ 1 ≤ d.para.alarmDelay i := by
  rw [sirenLimit, UInt16.le_iff_toNat_le]
  change _ ↔ 1 ≤ _
  omega

/-- A new delay is in bound exactly when the counter is stopped or has not passed it. -/
theorem assign_inBound_iff (h : (d.siren i).InBound (d.sirenLimit i)) (j : Zone) (w : UInt16) :
    ((d.assignAlarmDelay j w).siren i).InBound ((d.assignAlarmDelay j w).sirenLimit i) ↔
      ∀ almDly ∈ (if i = j then some w else none : Option UInt16),
        d.alarm.alarmingCnt i = -1 ∨ d.alarm.alarmingCnt i ≤ almDly.toNat * 10 := by
  rcases eq_or_ne i j with rfl | hij
  · have hl : (d.assignAlarmDelay i w).sirenLimit i = w.toNat * 10 := by
      simp [sirenLimit, assignAlarmDelay]
    rw [if_pos rfl, hl]
    simp only [Option.mem_some_iff, forall_eq']
    rcases h with h | ⟨h0, -⟩
    · exact iff_of_true (Or.inl h) (Or.inl h)
    · exact or_congr_right (and_iff_right h0)
  · have hl : (d.assignAlarmDelay j w).sirenLimit i = d.sirenLimit i := by
      simp [sirenLimit, assignAlarmDelay, hij]
    rw [if_neg hij, hl]
    exact iff_of_true h (by simp)

/-- One operation keeps the bound of zone `i` exactly under its condition. -/
theorem sirenStep_inBound_iff (h : (d.siren i).InBound (d.sirenLimit i)) (op : SirenOp) :
    ((sirenStep d op).siren i).InBound ((sirenStep d op).sirenLimit i) ↔ SirenOk d i op := by
  cases op with
  | tick =>
    rw [sirenStep, tim5_siren, tim5_limit, Siren.tick_inBound_iff h, one_le_sirenLimit_iff]
    rfl
  | setAlarm mask => exact iff_of_true h (by simp [SirenOk, newDelay])
  | clearAlarm mask => exact iff_of_true h (by simp [SirenOk, newDelay])
  | reset f =>
    refine iff_of_true ?_ (by simp [SirenOk, newDelay])
    rcases eq_or_ne i f with rfl | hf
    · exact Or.inl (by simp [sirenStep, siren, removeAlarmRL])
    · simpa [sirenStep, siren, removeAlarmRL, hf, sirenLimit] using h
  | assign j almDly => exact assign_inBound_iff h j almDly
  | setDelay j almDly => exact assign_inBound_iff h j almDly
  | modifyDelay fieldNum alarmDelay =>
    have hmod := fun j => assign_inBound_iff h j alarmDelay
    simp only [SirenOk, newDelay, sirenStep, modifyAlarmDelay]
    cases hz : d.zoneOf fieldNum with
    | none => exact iff_of_true h (by simp)
    | some j => simpa [storePara, siren, sirenLimit, eq_comm] using hmod j

/-- An operation other than a tick never makes a stopped siren sound. -/
theorem sirenStep_released (h : d.Bounded) (hr : d.Released) (op : SirenOp) :
    (sirenStep d op).Released := by
  intro i
  cases op with
  | tick => exact tim5_siren d i ▸ (hr i).tick (h i).neg_one_le
  | reset f =>
    rcases eq_or_ne i f with rfl | hf
    · simp [sirenStep, siren, removeAlarmRL, Siren.Released]
    · simpa [sirenStep, siren, removeAlarmRL, hf] using hr i
  | modifyDelay fieldNum alarmDelay =>
    rw [sirenStep, modifyAlarmDelay]
    split <;> exact hr i
  | _ => exact hr i

/-- Over a run the counters stay in their bounds exactly when every operation meets its condition; and
    then a siren whose alarms have gone is silent as soon as its delay has expired. -/
theorem siren_bounded (ops : List SirenOp) (h : d.Bounded) (hr : d.Released) :
    ((∀ p ∈ Run.steps sirenStep d ops, (sirenStep p.1 p.2).Bounded) ↔
      ∀ p ∈ Run.steps sirenStep d ops, ∀ i, SirenOk p.1 i p.2) ∧
    ((∀ p ∈ Run.steps sirenStep d ops, ∀ i, SirenOk p.1 i p.2) →
      ∀ i (n : ℕ), (ops.foldl sirenStep d).sounds i = false →
        (ops.foldl sirenStep d).sirenLimit i < (ops.foldl sirenStep d).alarm.alarmingCnt i + n →
        (tim5^[n] (ops.foldl sirenStep d)).siren i = Siren.silent) := by
  have hstep : ∀ (d : Dev) op, d.Bounded → ((sirenStep d op).Bounded ↔ ∀ i, SirenOk d i op) :=
    fun d op h => forall_congr' fun i => sirenStep_inBound_iff (h i) op
  refine ⟨Run.steps_iff _ _ hstep ops d h, fun hok i n hs hn => ?_⟩
  obtain ⟨hb, hr'⟩ := Run.foldl_inv_of_steps (fun d => d.Bounded ∧ d.Released)
    (fun d op hd hop => ⟨(hstep d op hd.1).mpr hop, sirenStep_released hd.1 hd.2 op⟩)
    ops d ⟨h, hr⟩ hok
  rw [tim5_iterate, hs]
  exact Siren.tick_expires n (hb i) (hr' i) (Or.inr hn)

instance (l : ℤ) (s : Siren) : Decidable (s.InBound l) := by unfold Siren.InBound; infer_instance

instance (s : Siren) : Decidable s.Released := by unfold Siren.Released; infer_instance

instance (d : Dev) : Decidable d.Bounded := by unfold Bounded; infer_instance

instance (d : Dev) : Decidable d.Released := by unfold Released; infer_instance

instance (d : Dev) (i : Zone) : ∀ op, Decidable (SirenOk d i op)
  | .tick => by unfold SirenOk; infer_instance
  | .assign .. | .setDelay .. | .modifyDelay .. | .setAlarm _ | .clearAlarm _ | .reset _ =>
      Option.decidableForallMem _

/-- An intrusion starts the siren, the delay is shortened to a second, the alarm goes. -/
def shortenedRun : List SirenOp :=
  [.tick, .setAlarm aInvdMask, .tick, .setDelay 0 1, .clearAlarm aInvdMask]

/-- An intrusion comes and goes while the delay is zero. -/
def zeroDelayRun : List SirenOp :=
  [.setDelay 0 0, .setAlarm aInvdMask, .tick, .clearAlarm aInvdMask]

/-- After a second the siren is off. -/
theorem siren_bounded_shortened :
    (∀ p ∈ Run.steps sirenStep blank shortenedRun, (sirenStep p.1 p.2).Bounded) ∧
    (tim5^[10] (shortenedRun.foldl sirenStep blank)).siren 0 = Siren.silent := by
  have hb : blank.Bounded := by decide +kernel
  have hr : blank.Released := by decide +kernel
  have hok : ∀ p ∈ Run.steps sirenStep blank shortenedRun, ∀ i, SirenOk p.1 i p.2 := by
    decide +kernel
  obtain ⟨hbound, hexp⟩ := siren_bounded shortenedRun hb hr
  exact ⟨hbound.mpr hok, hexp hok 0 10 (by decide +kernel) (by decide +kernel)⟩

/-- With a delay of zero the counter starts beyond its limit, and the siren of an alarm that is gone
    sounds for ever. -/
theorem siren_never_ends : ¬ (zeroDelayRun.foldl sirenStep blank).Bounded ∧
    (zeroDelayRun.foldl sirenStep blank).sounds 0 = false ∧
    ∀ n : ℕ, (tim5^[n] (zeroDelayRun.foldl sirenStep blank)).siren 0 = ⟨1 + n, true⟩ := by
  have hs : (zeroDelayRun.foldl sirenStep blank).siren 0 = ⟨1, true⟩ := by decide +kernel
  have hl : (zeroDelayRun.foldl sirenStep blank).sirenLimit 0 = 0 := by decide +kernel
  refine ⟨by decide +kernel, by decide +kernel, fun n => ?_⟩
  rw [tim5_iterate, hs, hl, Siren.tick_past (by decide) (by decide)]

end Dev

end VectorFence
