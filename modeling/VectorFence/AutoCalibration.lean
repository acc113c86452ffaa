import VectorFence.Alarm.Edges
import VectorFence.Calibration
import VectorFence.Web.Control

/-! Automatic calibration. Once a second `TIM3_IRQHandler` counts for both zones, A first; the
    counter of a zone that reaches `base_auto_calibrate_time` minutes starts `updateBaseVal`, goes
    back a little while something else is calibrated, and goes back a minute while the zone is
    disarmed or has an alarm.

        cnt + 1 = period ──flag 0xFF, armed, no alarm──▶ updateBaseVal, 0
                 ├────────flag not 0xFF────────────────▶ period - 5
                 └────────disarmed or alarm────────────▶ period - 60

    The counters begin at 0 and 60, so that the zones are calibrated a minute apart. A time of 0
    switches the calibration off and is meant to put both counters back; it writes the first one
    twice. -/

namespace VectorFence

namespace Dev

open Alarm AlarmWord

variable {d : Dev} {i : Zone}

/-! ### The calls of `updateBaseVal` -/

/-- `base_auto_calibrate_time * 60`. -/
def autoPeriod (d : Dev) : ℤ := d.adc.baseAutoCalibrateTime.toNat * 60

/-- The turn of a zone calls `updateBaseVal`. -/
def AutoStarts (d : Dev) (i : Zone) : Prop :=
  d.autoPeriod ≤ d.timer.baseAutoCalibrateCnt i + 1 ∧ d.adc.calibratingFlag = 0xFF ∧
    d.alarm.buFangFlag i = .on ∧ d.alarm.alarmState &&& (if i = 0 then 0x0103 else 0x020C) = 0

instance (d : Dev) (i : Zone) : Decidable (AutoStarts d i) := by unfold AutoStarts; infer_instance

/-- `TIM3_IRQHandler` before `++rtcTimeCnt`. -/
def halfSecond (d : Dev) : Dev :=
  tim3Verify { d with timer := { d.timer with
    runScreenRefresh := d.timer.runScreenRefresh + 1
    lm75TempCnt := if d.timer.lm75TempCnt + 1 = 10 then 0 else d.timer.lm75TempCnt + 1
    timerHandlerFlag :=
      if d.timer.lm75TempCnt + 1 = 10 then d.timer.timerHandlerFlag ||| BitVec.twoPow 8 7
      else d.timer.timerHandlerFlag } }

/-- The one-second part before the automatic calibration. -/
def secondStart (d : Dev) : Dev :=
  { d with
    timer := { d.timer with
      rtcTimeCnt := 0
      timerHandlerFlag :=
        d.timer.timerHandlerFlag ||| BitVec.twoPow 8 6 ||| BitVec.twoPow 8 5 }
    alarm := { d.alarm with
      fcAlmVerifyCnt := countUp 3 d.alarm.fcAlmVerifyCnt
      adcRlxAlmVerifyCnt := fun i => countUp relaxVerifiedTimeS (d.alarm.adcRlxAlmVerifyCnt i) } }

/-- The call of `updateBaseVal` in the turn of a zone, with the state it is made in. -/
def autoCall (d : Dev) (i : Zone) : List (Zone × Dev) :=
  if AutoStarts d i then [(i, d.setBaseAutoCalibrateCnt i 0)] else []

/-- The calls of `updateBaseVal` in the one-second part. -/
def secondCalls (d : Dev) : List (Zone × Dev) :=
  if 0 < d.adc.baseAutoCalibrateTime then
    autoCall d.secondStart 0 ++ autoCall (d.secondStart.autoCalibrate 0) 1
  else []

/-- The calls of `updateBaseVal` in `TIM3_IRQHandler`. -/
def tim3Calls (d : Dev) : List (Zone × Dev) :=
  if d.halfSecond.timer.rtcTimeCnt + 1 = 2 then d.halfSecond.secondCalls else []

theorem tim3_eq_halfSecond : d.tim3 =
    if d.halfSecond.timer.rtcTimeCnt + 1 = 2 then d.halfSecond.tim3Second
    else { d.halfSecond with timer := { d.halfSecond.timer with
      rtcTimeCnt := d.halfSecond.timer.rtcTimeCnt + 1 } } := rfl

theorem tim3Second_eq : d.tim3Second =
    if 0 < d.adc.baseAutoCalibrateTime then (d.secondStart.autoCalibrate 0).autoCalibrate 1
    else (d.secondStart.setBaseAutoCalibrateCnt 0 0).setBaseAutoCalibrateCnt 0 60 := rfl

@[simp] theorem setBaseAutoCalibrateCnt_cnt (j : Zone) (n : ℤ) :
    (d.setBaseAutoCalibrateCnt i n).timer.baseAutoCalibrateCnt j =
      if j = i then n else d.timer.baseAutoCalibrateCnt j :=
  Function.update_apply ..

@[simp] theorem setBaseAutoCalibrateCnt_adc (n : ℤ) : (d.setBaseAutoCalibrateCnt i n).adc = d.adc := rfl

/-- What the turn of a zone leaves. -/
theorem autoCalibrate_eq : d.autoCalibrate i =
    if AutoStarts d i then { d.setBaseAutoCalibrateCnt i 0 with adc := d.adc.updateBaseVal i }
    else d.setBaseAutoCalibrateCnt i
      (if d.timer.baseAutoCalibrateCnt i + 1 < d.autoPeriod then d.timer.baseAutoCalibrateCnt i + 1
      else if d.adc.calibratingFlag ≠ 0xFF then
      d.timer.baseAutoCalibrateCnt i + 1 - calibratingTime / 1000
      else d.autoPeriod - 60) := by
  have hdef : d.autoCalibrate i =
      if d.timer.baseAutoCalibrateCnt i + 1 < d.autoPeriod then
        d.setBaseAutoCalibrateCnt i (d.timer.baseAutoCalibrateCnt i + 1)
      else if d.adc.calibratingFlag ≠ 0xFF then
        d.setBaseAutoCalibrateCnt i (d.timer.baseAutoCalibrateCnt i + 1 - calibratingTime / 1000)
      else if d.alarm.buFangFlag i = .on ∧
          d.alarm.alarmState &&& (if i = 0 then 0x0103 else 0x020C) = 0 then
        { d.setBaseAutoCalibrateCnt i 0 with adc := d.adc.updateBaseVal i }
      else d.setBaseAutoCalibrateCnt i (d.autoPeriod - 60) := rfl
  rw [hdef]
  by_cases hcnt : d.timer.baseAutoCalibrateCnt i + 1 < d.autoPeriod
  · have hno : ¬AutoStarts d i := fun h => absurd h.1 (by omega)
    rw [if_pos hcnt, if_neg hno, if_pos hcnt]
  · have hle : d.autoPeriod ≤ d.timer.baseAutoCalibrateCnt i + 1 := by omega
    rw [if_neg hcnt, if_neg hcnt]
    by_cases hflag : d.adc.calibratingFlag ≠ 0xFF
    · have hno : ¬AutoStarts d i := fun h => hflag h.2.1
      rw [if_pos hflag, if_neg hno, if_pos hflag]
    · rw [if_neg hflag, if_neg hflag]
      by_cases hcalm : d.alarm.buFangFlag i = .on ∧
          d.alarm.alarmState &&& (if i = 0 then 0x0103 else 0x020C) = 0
      · have hstart : AutoStarts d i := ⟨hle, not_not.mp hflag, hcalm⟩
        rw [if_pos hcalm, if_pos hstart]
      · have hno : ¬AutoStarts d i := fun h => hcalm h.2.2
        rw [if_neg hcalm, if_neg hno]

theorem autoCalibrate_adc : (d.autoCalibrate i).adc =
    if AutoStarts d i then d.adc.updateBaseVal i else d.adc := by
  rw [autoCalibrate_eq]
  split_ifs <;> rfl

/-- After a start nothing else is started in the same second. -/
theorem not_autoStarts_after (h : AutoStarts d 0) : ¬AutoStarts (d.autoCalibrate 0) 1 := by
  intro h'
  have hflag := h'.2.1
  rw [autoCalibrate_adc, if_pos h] at hflag
  exact absurd hflag (by change ¬(0x10 ||| UInt8.ofNat 0) = 0xFF; decide)

/-- A zone whose part of the word is zero has none of its alarms. -/
theorem last_eq_false (h : d.alarm.alarmState &&& (if i = 0 then 0x0103 else 0x020C) = 0) (c : Cond) :
    d.last i c = false := by
  have hzero : BitVec.getLsbD (0 : AlarmWord) (Alarm.mask i c) = false := BitVec.getLsbD_zero
  have hin : BitVec.getLsbD (if i = 0 then 0x0103 else 0x020C : AlarmWord) (Alarm.mask i c) = true := by
    clear h hzero
    revert i
    cases c <;> decide
  have hbit := congrArg (fun s : AlarmWord => s.getLsbD (Alarm.mask i c)) h
  simp only [BitVec.getLsbD_and, hin, Bool.and_true] at hbit
  exact hbit.trans hzero

/-- A call is made in a state in which nothing is calibrated, the zone is armed and has no alarm. -/
def MayCalibrate (call : Zone × Dev) : Prop :=
  call.2.adc.calibratingFlag = 0xFF ∧ call.2.alarm.buFangFlag call.1 = .on ∧
    ∀ c, call.2.last call.1 c = false

theorem mayCalibrate_autoCall {call : Zone × Dev} (h : call ∈ autoCall d i) : MayCalibrate call := by
  rw [autoCall] at h
  split_ifs at h with hstart
  · rw [List.mem_singleton.mp h]
    exact ⟨hstart.2.1, hstart.2.2.1, last_eq_false hstart.2.2.2⟩
  · simp at h

theorem mayCalibrate_tim3Calls {call : Zone × Dev} (h : call ∈ d.tim3Calls) : MayCalibrate call := by
  rw [tim3Calls, secondCalls] at h
  split_ifs at h
  · rcases List.mem_append.mp h with h | h <;> exact mayCalibrate_autoCall h
  · simp at h
  · simp at h

theorem length_tim3Calls : d.tim3Calls.length ≤ 1 := by
  rw [tim3Calls, secondCalls]
  split_ifs
  · rw [List.length_append, autoCall, autoCall]
    split_ifs with h0 h1
    · exact absurd h1 (not_autoStarts_after h0)
    all_goals simp
  · simp
  · simp

/-- What a tick does to the calibration is what its calls do. -/
theorem tim3_adc :
    d.tim3.adc = d.tim3Calls.foldl (fun adc call => adc.updateBaseVal call.1) d.adc := by
  have hcall (e : Dev) (i : Zone) : (e.autoCalibrate i).adc =
      (autoCall e i).foldl (fun adc call => adc.updateBaseVal call.1) e.adc := by
    rw [autoCalibrate_adc, autoCall]
    split_ifs <;> rfl
  have hstart : d.halfSecond.secondStart.adc = d.adc := rfl
  rw [tim3_eq_halfSecond, tim3Calls, secondCalls]
  split_ifs with hsec htime
  · rw [tim3Second_eq, if_pos htime, hcall, hcall, List.foldl_append, hstart]
  · rw [tim3Second_eq, if_neg htime, setBaseAutoCalibrateCnt_adc, setBaseAutoCalibrateCnt_adc]
    rfl
  · rfl

/-- While something is calibrated a tick starts nothing. -/
theorem tim3_adc_of_busy (h : d.adc.calibratingFlag ≠ 0xFF) : d.tim3.adc = d.adc := by
  have hauto {e : Dev} (he : e.adc = d.adc) (i : Zone) : (e.autoCalibrate i).adc = d.adc := by
    rw [autoCalibrate_adc, if_neg fun hs => h (he ▸ hs.2.1), he]
  rw [tim3_eq_halfSecond]
  split_ifs
  · rw [tim3Second_eq]
    split_ifs
    · have hstart : d.halfSecond.secondStart.adc = d.adc := rfl
      exact hauto (hauto hstart 0) 1
    · rw [setBaseAutoCalibrateCnt_adc, setBaseAutoCalibrateCnt_adc]
      rfl
  · rfl

end Dev

/-! ### The run -/

namespace Calib

/-- What goes on beside the automatic calibration: the alarms with the ticks of timer 3 among them, the
    ticks of timer 4, the samples, and the requests, those of the web page with any number. -/
inductive AutoOp where
  | alarm (op : Dev.AlarmOp)
  | calib (op : Op)
  | requestZero (fieldIndex : UInt8)
  | requestBase (fieldIndex : UInt8)
  | setBaseAutoCalibrateTime (value : UInt16)

def autoStep (s : Calib) : AutoOp → Calib
  | .alarm op => s.onDev fun d => d.alarmStep op
  | .calib op => s.step op
  | .requestZero fieldIndex => s.onDev (Dev.requestZero fieldIndex)
  | .requestBase fieldIndex => s.onDev (Dev.requestBase fieldIndex)
  | .setBaseAutoCalibrateTime value => s.onDev (Dev.setBaseAutoCalibrateTime value)

/-- The calls of `updateBaseVal` that `TIM3_IRQHandler` makes in a step. -/
def autoCalls (s : Calib) : AutoOp → List (Zone × Dev)
  | .alarm .tim3 => s.dev.tim3Calls
  | _ => []

/-- In every run a tick starts at most one calibration, and only of an armed zone without alarms
    while none is running; what it does to a calibration is what its calls do, and a running one it
    leaves alone. -/
theorem auto_never_interferes (s : Calib) (ops : List AutoOp) :
    (∀ p ∈ Run.steps autoStep s ops,
      (∀ call ∈ autoCalls p.1 p.2, Dev.MayCalibrate call) ∧ (autoCalls p.1 p.2).length ≤ 1) ∧
    ∀ p ∈ Run.steps autoStep s ops, p.2 = .alarm .tim3 →
      (autoStep p.1 p.2).dev.adc =
        (autoCalls p.1 p.2).foldl (fun adc call => adc.updateBaseVal call.1) p.1.dev.adc ∧
      (p.1.dev.adc.calibratingFlag ≠ 0xFF → (autoStep p.1 p.2).dev.adc = p.1.dev.adc) := by
  refine ⟨fun p _ => ?_, fun p _ htick => ?_⟩
  · have hnone : (∀ call ∈ ([] : List (Zone × Dev)), Dev.MayCalibrate call) ∧
        ([] : List (Zone × Dev)).length ≤ 1 := by simp
    cases p.2 with
    | alarm op =>
      cases op with
      | tim3 => exact ⟨fun call h => Dev.mayCalibrate_tim3Calls h, Dev.length_tim3Calls⟩
      | _ => exact hnone
    | _ => exact hnone
  · rw [htick]
    exact ⟨Dev.tim3_adc, Dev.tim3_adc_of_busy⟩

end Calib

/-! ### Switching it off and on -/

/-- What the automatic calibration is given in a second. -/
structure AutoEnv where
  buFangFlag : Zone → Switch
  alarmState : AlarmWord
  calibratingFlag : UInt8

namespace Dev

variable {d b : Dev} {i : Zone} {m : UInt16}

def withEnv (e : AutoEnv) (d : Dev) : Dev :=
  { d with
    alarm := { d.alarm with buFangFlag := e.buFangFlag, alarmState := e.alarmState }
    adc := { d.adc with calibratingFlag := e.calibratingFlag } }

/-- A one-second step of `TIM3_IRQHandler`. -/
def autoSecond (d : Dev) (e : AutoEnv) : Dev := (d.withEnv e).tim3Second

/-- The zones that a one-second step starts. -/
def secondStarts (d : Dev) (e : AutoEnv) : List Zone := (d.withEnv e).secondCalls.map Prod.fst

/-- The zones that are started, second after second. -/
def schedule (d : Dev) (es : List AutoEnv) : List (List Zone) :=
  (Run.steps autoSecond d es).map fun p => secondStarts p.1 p.2

/-- The calibration is switched off, stays off for some seconds, and is switched on again. -/
def resumed (d : Dev) (off : List AutoEnv) (m : UInt16) : Dev :=
  (off.foldl autoSecond (d.setBaseAutoCalibrateTime 0)).setBaseAutoCalibrateTime m

/-- The counters of a device that was just booted. -/
def booted (d : Dev) (m : UInt16) : Dev :=
  { d with timer := Timer.powerOn }.setBaseAutoCalibrateTime m

/-- Both zones are armed and quiet, and nothing is calibrated. -/
def calm : AutoEnv where
  buFangFlag _ := .on
  alarmState := 0
  calibratingFlag := 0xFF

/-- The counter of zone A and the time. -/
structure CountsA (c : ℤ) (m : UInt16) (d : Dev) : Prop where
  cnt : d.timer.baseAutoCalibrateCnt 0 = c
  time : d.adc.baseAutoCalibrateTime = m

theorem autoCalibrate_time (i : Zone) :
    (d.autoCalibrate i).adc.baseAutoCalibrateTime = d.adc.baseAutoCalibrateTime := by
  rw [autoCalibrate_adc]
  split_ifs <;> rfl

/-- The turn of zone B leaves the counter of zone A alone. -/
theorem autoCalibrate_cnt_other :
    (d.autoCalibrate 1).timer.baseAutoCalibrateCnt 0 = d.timer.baseAutoCalibrateCnt 0 := by
  rw [autoCalibrate_eq]
  split_ifs <;> simp

theorem autoSecond_time (e : AutoEnv) :
    (d.autoSecond e).adc.baseAutoCalibrateTime = d.adc.baseAutoCalibrateTime := by
  rw [autoSecond, tim3Second_eq]
  split_ifs
  · rw [autoCalibrate_time, autoCalibrate_time]
    rfl
  · rfl

/-- Switched on again, zone A is a minute ahead. -/
theorem countsA_resumed (off : List AutoEnv) (h : off ≠ []) : CountsA 60 m (resumed d off m) := by
  refine ⟨?_, rfl⟩
  have htime (es : List AutoEnv) :
      (es.foldl autoSecond (d.setBaseAutoCalibrateTime 0)).adc.baseAutoCalibrateTime = 0 :=
    Run.foldl_inv (fun e : Dev => e.adc.baseAutoCalibrateTime = 0)
      (fun _ e he => (autoSecond_time e).trans he) es _ rfl
  obtain ⟨es, e, rfl⟩ := (List.eq_nil_or_concat off).resolve_left h
  have hoff : ¬(0 : UInt16) < ((es.foldl autoSecond (d.setBaseAutoCalibrateTime 0)).withEnv
      e).adc.baseAutoCalibrateTime := by
    change ¬(0 : UInt16) < (es.foldl autoSecond _).adc.baseAutoCalibrateTime
    rw [htime]
    decide
  change ((es.concat e).foldl autoSecond _).timer.baseAutoCalibrateCnt 0 = 60
  rw [List.concat_eq_append, List.foldl_append, List.foldl_cons, List.foldl_nil, autoSecond,
    tim3Second_eq, if_neg hoff, setBaseAutoCalibrateCnt_cnt, if_pos rfl]

theorem countsA_booted : CountsA 0 m (booted d m) := ⟨rfl, rfl⟩

/-- In calm seconds zone A is started as soon as its counter reaches the period. -/
theorem mem_secondStarts_calm {c : ℤ} (h : CountsA c m d) (hm : 0 < m) :
    0 ∈ d.secondStarts calm ↔ (m.toNat : ℤ) * 60 ≤ c + 1 := by
  have htime : 0 < (d.withEnv calm).adc.baseAutoCalibrateTime := by
    change 0 < d.adc.baseAutoCalibrateTime
    rwa [h.time]
  have hA : AutoStarts (d.withEnv calm).secondStart 0 ↔ (m.toNat : ℤ) * 60 ≤ c + 1 := by
    have hperiod : (d.withEnv calm).secondStart.autoPeriod = (m.toNat : ℤ) * 60 := by
      rw [← h.time]
      rfl
    have hcnt : (d.withEnv calm).secondStart.timer.baseAutoCalibrateCnt 0 = c := h.cnt
    rw [AutoStarts, hperiod, hcnt]
    exact and_iff_left ⟨rfl, rfl, BitVec.zero_and⟩
  have hB (e : Dev) : 0 ∉ (autoCall e 1).map Prod.fst := by
    rw [autoCall]
    split_ifs <;> simp
  rw [secondStarts, secondCalls, if_pos htime, List.map_append, List.mem_append,
    or_iff_left (hB _), ← hA,
    autoCall]
  split_ifs with hstart
  · simp [hstart]
  · simp [hstart]

/-- Until then a calm second adds one. -/
theorem CountsA.autoSecond {c : ℤ} (h : CountsA c m d) (hm : 0 < m) (hc : c + 1 < (m.toNat : ℤ) * 60) :
    CountsA (c + 1) m (d.autoSecond calm) := by
  refine ⟨?_, (autoSecond_time calm).trans h.time⟩
  have htime : 0 < (d.withEnv calm).adc.baseAutoCalibrateTime := by
    change 0 < d.adc.baseAutoCalibrateTime
    rwa [h.time]
  have hperiod : (d.withEnv calm).secondStart.autoPeriod = (m.toNat : ℤ) * 60 := by
    rw [← h.time]
    rfl
  have hcnt : (d.withEnv calm).secondStart.timer.baseAutoCalibrateCnt 0 = c := h.cnt
  have hno : ¬AutoStarts (d.withEnv calm).secondStart 0 := fun hs => by
    have hle := hs.1
    rw [hperiod, hcnt] at hle
    omega
  rw [Dev.autoSecond, tim3Second_eq, if_pos htime, autoCalibrate_cnt_other,
    autoCalibrate_eq, if_neg hno,
    hcnt, hperiod, if_pos hc, setBaseAutoCalibrateCnt_cnt, if_pos rfl]

theorem countsA_calm {c : ℤ} (h : CountsA c m d) (hm : 0 < m) : ∀ n : ℕ, c + n < (m.toNat : ℤ) * 60 →
    CountsA (c + n) m ((List.replicate n calm).foldl Dev.autoSecond d)
  | 0, _ => by simpa using h
  | n + 1, hn => by
      push_cast at hn
      rw [List.replicate_succ', List.foldl_append, List.foldl_cons, List.foldl_nil]
      have hlast := (countsA_calm h hm n (by omega)).autoSecond hm (by omega)
      rw [Int.add_assoc] at hlast
      push_cast
      exact hlast

theorem schedule_concat (es : List AutoEnv) (e : AutoEnv) :
    d.schedule (es ++ [e]) = d.schedule es ++ [(es.foldl Dev.autoSecond d).secondStarts e] := by
  rw [schedule, schedule, Run.steps_append, List.map_append]
  rfl

/-- Switched off for a second or more and on again with any time, the calibration never keeps the
    schedule of a device that was just booted: in calm seconds zone A is started a minute earlier. -/
theorem resumed_ne_booted (off : List AutoEnv) (hoff : off ≠ []) (hm : 0 < m) :
    ¬ ∀ es, (resumed d off m).schedule es = (booted b m).schedule es := by
  intro h
  have hm' : 0 < m.toNat := UInt16.lt_iff_toNat_lt.mp hm
  -- the seconds before the one in which zone A is started
  set n := m.toNat * 60 - 61 with hn
  have hsame := h (List.replicate n calm ++ [calm])
  rw [schedule_concat, schedule_concat] at hsame
  have hlast := (List.append_inj' hsame (by rw [List.length_singleton, List.length_singleton])).2
  have hresumed := countsA_resumed (d := d) (m := m) off hoff
  have hboot : CountsA (0 + n) m ((List.replicate n calm).foldl Dev.autoSecond (booted b m)) :=
    countsA_calm countsA_booted hm n (by omega)
  have hstart : (0 : Zone) ∈
      ((List.replicate n calm).foldl Dev.autoSecond (resumed d off m)).secondStarts calm := by
    rcases Nat.eq_zero_or_pos n with hzero | hpos
    · rw [hzero, List.replicate_zero, List.foldl_nil, mem_secondStarts_calm hresumed hm]
      omega
    · rw [mem_secondStarts_calm (countsA_calm hresumed hm n (by omega)) hm]
      omega
  rw [List.singleton_inj.mp hlast, mem_secondStarts_calm hboot hm] at hstart
  omega

theorem resumed_ne_booted_blank :
    ¬ ∀ es, (resumed blank [calm] 30).schedule es = (booted blank 30).schedule es :=
  resumed_ne_booted [calm] (by simp) (by decide)

/-- With a time of one minute zone A is calibrated in the first second. -/
theorem resumed_one_minute : ¬ ∀ (d : Dev) (off es : List AutoEnv) (m : UInt16), off ≠ [] → 0 < m →
    (resumed d off m).schedule es = (booted d m).schedule es := by
  intro h
  have hsame := h blank [calm] [calm] 1 (by simp) (by decide)
  revert hsame
  decide +kernel

end Dev

end VectorFence
