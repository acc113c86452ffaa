import VectorFence.Alarm.Basic
import VectorFence.Log.History

/-! The device: the EEPROM and the variables of the modules, and the operations that reach across
    them. `watch_task` calls `ADC_Check_Handler` for a zone when the timer asks for it; the timers 3
    and 5 count in half seconds and tenths of a second.

        TIM3 ──▶ verify counters, auto-calibration        TIM5 ──▶ sirens
        ADC_Check_Handler ──▶ ALARM_STATE, log of the zone -/

namespace VectorFence

/-- The variables of `timer.c`. -/
structure Timer where
  runScreenRefresh : UInt8
  lm75TempCnt : UInt8
  rtcTimeCnt : UInt8
  timerHandlerFlag : BitVec 8
  /-- An `s32`; at the period, which is at most 65535 min, it goes back to 0 or by at most a minute. -/
  baseAutoCalibrateCnt : Zone → ℤ

def calibratingTime : ℤ := 5000

/-- The whole device. -/
structure Dev where
  mem : Eeprom
  log : Log
  rtcTempStr : List UInt8
  para : FieldPara
  adc : Adc
  alarm : Alarm
  timer : Timer

def Timer.powerOn : Timer where
  runScreenRefresh := 0
  lm75TempCnt := 0
  rtcTimeCnt := 0
  timerHandlerFlag := 0
  baseAutoCalibrateCnt := ![0, 60]

namespace Dev

open Alarm AlarmWord

/-- A new device after its first start, with an EEPROM content and a clock. -/
def factory (m : Eeprom) (rtcTempStr : List UInt8) : Dev where
  mem := (Log.logInit m Log.powerOn).1
  log := (Log.logInit m Log.powerOn).2
  rtcTempStr := rtcTempStr
  para := FieldPara.powerOn
  adc := Adc.default
  alarm := Alarm.default
  timer := Timer.powerOn

/-- A device with a blank EEPROM. -/
def blank : Dev := factory Log.newEeprom TimeStr.sample.bytes

/-- `WriteLog(logType, alarmFlag)`. -/
def writeLog (t : LogType) (alarmFlag : UInt8) (d : Dev) : Dev :=
  let r := Log.writeLog d.mem d.log t d.rtcTempStr alarmFlag
  { d with mem := r.1, log := r.2 }

/-- `WriteFieldParaToEEProm()`. -/
def storePara (d : Dev) : Dev := { d with mem := FieldPara.writeFieldParaToEEProm d.mem d.para }

/-! ### Zone parameters -/

/-- `alarm_delay[i] = almDly`. -/
def assignAlarmDelay (i : Zone) (almDly : UInt16) (d : Dev) : Dev :=
  { d with para := { d.para with alarmDelay := Function.update d.para.alarmDelay i almDly } }

def setAlarmDelay (i : Zone) (almDly : UInt16) (d : Dev) : Dev :=
  (d.assignAlarmDelay i almDly).storePara

/-- The zone with a zone number, zone A first. -/
def zoneOf (d : Dev) (fieldNum : UInt8) : Option Zone :=
  if d.para.fieldNum 0 = fieldNum then some 0
  else if d.para.fieldNum 1 = fieldNum then some 1
  else none

def modifyAlarmDelay (fieldNum : UInt8) (alarmDelay : UInt16) (d : Dev) : Dev :=
  match d.zoneOf fieldNum with
  | some i => (d.assignAlarmDelay i alarmDelay).storePara
  | none => d.storePara

/-! ### Checking a zone -/

/-- `adc_invd_crt`, `adc_open_crt`, `adc_relax_crt`. -/
def crt (d : Dev) (f : Zone) : Cond → Bool
  | .invd => d.alarm.adcInvdCrt f
  | .opn => d.alarm.adcOpenCrt f
  | .rlx => d.alarm.adcRelaxCrt f

/-- `adcIvdAlmVerifyCnt`, `adcOpnAlmVerifyCnt`, `adcRlxAlmVerifyCnt`. -/
def verifyCnt (d : Dev) (f : Zone) : Cond → UInt8
  | .invd => d.alarm.adcIvdAlmVerifyCnt f
  | .opn => d.alarm.adcOpnAlmVerifyCnt f
  | .rlx => d.alarm.adcRlxAlmVerifyCnt f

def setVerifyCnt (f : Zone) (n : UInt8) : Cond → Dev → Dev
  | .invd, d => { d with alarm := { d.alarm with
      adcIvdAlmVerifyCnt := Function.update d.alarm.adcIvdAlmVerifyCnt f n } }
  | .opn, d => { d with alarm := { d.alarm with
      adcOpnAlmVerifyCnt := Function.update d.alarm.adcOpnAlmVerifyCnt f n } }
  | .rlx, d => { d with alarm := { d.alarm with
      adcRlxAlmVerifyCnt := Function.update d.alarm.adcRlxAlmVerifyCnt f n } }

/-- The alarm bit of a condition. -/
def last (d : Dev) (f : Zone) (c : Cond) : Bool := getAlarmState d.alarm.alarmState (mask f c)

/-- The count at which a condition is confirmed. -/
def verifyLimit (d : Dev) (f : Zone) : Cond → ℕ
  | .rlx => relaxVerifiedTimeS
  | _ => (d.para.alarmSensitivity f).toNat

/-- The log a condition is written to; relaxation is not logged. -/
def condLog (f : Zone) : Cond → Option LogType
  | .invd => some (if f = 0 then .AIVD else .BIVD)
  | .opn => some (if f = 0 then .AOPN else .BOPN)
  | .rlx => none

/-- `ADC_Check`. -/
def adcCheck (f : Zone) (r : Readings) (d : Dev) : Dev :=
  let adc := Adc.updateCrtSmp d.alarm.w4W6 r f d.adc
  { d with adc := adc, alarm := adcCheckLines adc f d.alarm }

/-- Setting the bit of a confirmed condition. -/
def confirm (f : Zone) (c : Cond) (d : Dev) : Dev :=
  let d := { d with alarm := setAlarmStateUtilClear (mask f c) d.alarm }
  match condLog f c with
  | some t => d.writeLog t 1
  | none => d

/-- The block of `ADC_Check_Handler` for one condition, `last` being its bit before the check. -/
def checkCond (f : Zone) (c : Cond) (last : Bool) (d : Dev) : Dev :=
  if d.crt f c = last then d
  else if d.crt f c then
    let d := if d.verifyCnt f c = 0 then setVerifyCnt f 1 c d else d
    if d.verifyLimit f c ≤ (d.verifyCnt f c).toNat then d.confirm f c else d
  else
    let d := setVerifyCnt f 0 c d
    { d with alarm := d.alarm.clear (mask f c) }

/-- `ADC_Check_Handler`. -/
def adcCheckHandler (f : Zone) (r : Readings) (d : Dev) : Dev :=
  let invdLast := d.last f .invd
  let openLast := d.last f .opn
  let relaxLast := d.last f .rlx
  let d := d.adcCheck f r
  if d.alarm.buFangFlag f = .on then
    checkCond f .rlx relaxLast (checkCond f .opn openLast (checkCond f .invd invdLast d))
  else
    let d := setVerifyCnt f 0 .rlx (setVerifyCnt f 0 .opn (setVerifyCnt f 0 .invd d))
    { d with alarm :=
      ((d.alarm.clear (mask f .opn)).clear (mask f .invd)).clear (mask f .rlx) }

/-! ### The timers -/

/-- A verify counter that is running and has not passed its limit by one. -/
def countUp (limit : ℕ) (cnt : UInt8) : UInt8 :=
  if 0 < cnt ∧ cnt.toNat < limit + 1 then cnt + 1 else cnt

/-- The half-second part of `TIM3_IRQHandler`. -/
def tim3Verify (d : Dev) : Dev :=
  { d with alarm := { d.alarm with
      adcIvdAlmVerifyCnt := fun i =>
        countUp (d.para.alarmSensitivity i).toNat (d.alarm.adcIvdAlmVerifyCnt i)
      adcOpnAlmVerifyCnt := fun i =>
        countUp (d.para.alarmSensitivity i).toNat (d.alarm.adcOpnAlmVerifyCnt i) } }

def setBaseAutoCalibrateCnt (i : Zone) (n : ℤ) (d : Dev) : Dev :=
  { d with timer := { d.timer with
      baseAutoCalibrateCnt := Function.update d.timer.baseAutoCalibrateCnt i n } }

/-- One turn of the auto-calibration loop of `TIM3_IRQHandler`. -/
def autoCalibrate (d : Dev) (i : Zone) : Dev :=
  let period : ℤ := d.adc.baseAutoCalibrateTime.toNat * 60
  let cnt := d.timer.baseAutoCalibrateCnt i + 1
  if cnt < period then d.setBaseAutoCalibrateCnt i cnt
  else if d.adc.calibratingFlag ≠ 0xFF then d.setBaseAutoCalibrateCnt i (cnt - calibratingTime / 1000)
  else if d.alarm.buFangFlag i = .on ∧
      d.alarm.alarmState &&& (if i = 0 then 0x0103 else 0x020C) = 0 then
    { d.setBaseAutoCalibrateCnt i 0 with adc := Adc.updateBaseVal i d.adc }
  else d.setBaseAutoCalibrateCnt i (period - 60)

/-- The one-second part of `TIM3_IRQHandler`. -/
def tim3Second (d : Dev) : Dev :=
  let d := { d with
    timer := { d.timer with
      rtcTimeCnt := 0
      timerHandlerFlag :=
        d.timer.timerHandlerFlag ||| BitVec.twoPow 8 6 ||| BitVec.twoPow 8 5 }
    alarm := { d.alarm with
      fcAlmVerifyCnt := countUp 3 d.alarm.fcAlmVerifyCnt
      adcRlxAlmVerifyCnt := fun i => countUp relaxVerifiedTimeS (d.alarm.adcRlxAlmVerifyCnt i) } }
  if 0 < d.adc.baseAutoCalibrateTime then autoCalibrate (autoCalibrate d 0) 1
  else (d.setBaseAutoCalibrateCnt 0 0).setBaseAutoCalibrateCnt 0 60

/-- `TIM3_IRQHandler`. -/
def tim3 (d : Dev) : Dev :=
  let d := { d with timer := { d.timer with
    runScreenRefresh := d.timer.runScreenRefresh + 1
    lm75TempCnt := if d.timer.lm75TempCnt + 1 = 10 then 0 else d.timer.lm75TempCnt + 1
    timerHandlerFlag :=
      if d.timer.lm75TempCnt + 1 = 10 then d.timer.timerHandlerFlag ||| BitVec.twoPow 8 7
      else d.timer.timerHandlerFlag } }
  let d := d.tim3Verify
  if d.timer.rtcTimeCnt + 1 = 2 then d.tim3Second
  else { d with timer := { d.timer with rtcTimeCnt := d.timer.rtcTimeCnt + 1 } }

/-- `TIM5_IRQHandler`. -/
def tim5 (d : Dev) : Dev :=
  { d with alarm := tim5Zone (d.para.alarmDelay 1) 1 (tim5Zone (d.para.alarmDelay 0) 0 d.alarm) }

end Dev

end VectorFence
