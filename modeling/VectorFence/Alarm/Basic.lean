import VectorFence.Adc

/-! The alarm state of `alarm.c`. `ALARM_STATE` is a word of bits, one for each kind of alarm; the
    siren of a zone is a relay and a counter of tenths of a second.

        bit  9      8      6    5    4       3      2       1      0
             B_RLX  A_RLX  SW2  SW1  AB_FCH  B_OPN  B_INVD  A_OPN  A_INVD -/

namespace VectorFence

/-- `ON` and `OFF`. -/
inductive Switch where | off | on
  deriving DecidableEq, Repr

namespace Alarm

def bRlxMask : ℕ := 9
def aRlxMask : ℕ := 8
def sw2Mask : ℕ := 6
def sw1Mask : ℕ := 5
def abFchMask : ℕ := 4
def bOpnMask : ℕ := 3
def bInvdMask : ℕ := 2
def aOpnMask : ℕ := 1
def aInvdMask : ℕ := 0

/-- The three conditions a zone is checked for. -/
inductive Cond where | invd | opn | rlx
  deriving DecidableEq, Repr

/-- The bit of a condition in a zone, `field_index == 0 ? A_… : B_…`. -/
def mask (f : Zone) : Cond → ℕ
  | .invd => if f = 0 then aInvdMask else bInvdMask
  | .opn => if f = 0 then aOpnMask else bOpnMask
  | .rlx => if f = 0 then aRlxMask else bRlxMask

def openValMaxKg : ℤ := 10
def relaxVerifiedTimeS : ℕ := 2

end Alarm

/-- An alarm word. -/
abbrev AlarmWord := BitVec 16

namespace AlarmWord

def setAlarmState (state : AlarmWord) (mask : ℕ) : AlarmWord := state ||| BitVec.twoPow 16 mask

def clearAlarmState (state : AlarmWord) (mask : ℕ) : AlarmWord := state &&& ~~~BitVec.twoPow 16 mask

/-- `ALARM` (true) or `NO_ALARM` (false). -/
def getAlarmState (state : AlarmWord) (mask : ℕ) : Bool := state.getLsbD mask

theorem get_set {k : ℕ} (hk : k < 16) (s : AlarmWord) (j : ℕ) :
    getAlarmState (setAlarmState s k) j = (getAlarmState s j || decide (k = j)) := by
  rw [getAlarmState, setAlarmState, BitVec.getLsbD_or, BitVec.getLsbD_twoPow, getAlarmState]
  simp [hk]

theorem get_clear {j : ℕ} (hj : j < 16) (s : AlarmWord) (k : ℕ) :
    getAlarmState (clearAlarmState s k) j = (getAlarmState s j && !decide (k = j)) := by
  rw [getAlarmState, clearAlarmState, BitVec.getLsbD_and, BitVec.getLsbD_not, BitVec.getLsbD_twoPow,
    getAlarmState]
  by_cases h : k = j <;> simp [h, hj]

end AlarmWord

/-- The variables of `alarm.c`, with `config_code` of `sys.c` and the relays `RL_A` and `RL_B`. -/
structure Alarm where
  alarmState : AlarmWord
  alarmStateDelay : AlarmWord
  configCode : BitVec 8
  w4W6 : Wires
  flagFcgjsn : Switch
  buFangFlag : Zone → Switch
  adcInvdCrt : Zone → Bool
  adcOpenCrt : Zone → Bool
  adcRelaxCrt : Zone → Bool
  alarmThresholdUpDif : UInt16
  alarmThresholdDownDif : UInt16
  fcAlmVerifyCnt : UInt8
  adcIvdAlmVerifyCnt : Zone → UInt8
  adcOpnAlmVerifyCnt : Zone → UInt8
  adcRlxAlmVerifyCnt : Zone → UInt8
  /-- An `s32`: -1, or the tenths of a second of the siren. Even where it misses `alarm_delay` it
  stays below 2^31 for six years. -/
  alarmingCnt : Zone → ℤ
  rl : Zone → Bool
  remoteShutdown : Bool

namespace Alarm

open AlarmWord

/-- The values after `ALARM_Init` on a new device with two zones. -/
def default : Alarm where
  alarmState := 0
  alarmStateDelay := 0
  configCode := 0x01
  w4W6 := .isW4
  flagFcgjsn := .on
  buFangFlag _ := .on
  adcInvdCrt _ := false
  adcOpenCrt _ := false
  adcRelaxCrt _ := false
  alarmThresholdUpDif := 50
  alarmThresholdDownDif := 50
  fcAlmVerifyCnt := 0
  adcIvdAlmVerifyCnt _ := 0
  adcOpnAlmVerifyCnt _ := 0
  adcRlxAlmVerifyCnt _ := 0
  alarmingCnt _ := 0
  rl _ := false
  remoteShutdown := false

/-- `IS_SET_BIT(config_code, n)`. -/
def configBit (s : Alarm) (n : ℕ) : Bool := s.configCode.getLsbD n

/-! ### The siren -/

/-- `Alarm_RL_A` / `Alarm_RL_B`. -/
def alarmRL (f : Zone) (s : Alarm) : Alarm :=
  { s with rl := Function.update s.rl f true, alarmingCnt := Function.update s.alarmingCnt f 1 }

/-- `Remove_Alarm_RL_A` / `Remove_Alarm_RL_B`. -/
def removeAlarmRL (f : Zone) (s : Alarm) : Alarm :=
  { s with
    rl := Function.update s.rl f false
    alarmingCnt := Function.update s.alarmingCnt f (-1)
    alarmStateDelay := s.alarmState }

/-- The alarms that sound the siren of a zone; bit 3 of `config_code` leaves out relaxation. -/
def sirenMask (s : Alarm) (f : Zone) : AlarmWord :=
  if f = 0 then if s.configBit 3 then 0x13 else 0x113 else if s.configBit 3 then 0x1C else 0x21C

/-- The part of `TIM5_IRQHandler` for one zone, with `alarm_delay[f]` as `delay`. -/
def tim5Zone (delay : UInt16) (f : Zone) (s : Alarm) : Alarm :=
  if s.alarmingCnt f = -1 then
    if s.alarmState &&& s.sirenMask f ≠ 0 then s.alarmRL f else s
  else if s.alarmingCnt f = delay.toNat * 10 then
    if s.alarmState &&& s.sirenMask f ≠ 0 then s.alarmRL f else s.removeAlarmRL f
  else { s with alarmingCnt := Function.update s.alarmingCnt f (s.alarmingCnt f + 1) }

def setAlarmStateUtilClear (mask : ℕ) (s : Alarm) : Alarm :=
  { s with
    alarmState := setAlarmState s.alarmState mask
    alarmStateDelay :=
      if s.configBit 2 then s.alarmStateDelay else setAlarmState s.alarmStateDelay mask }

/-- `CLEAR_ALARM_STATE(ALARM_STATE, mask)`. -/
def clear (mask : ℕ) (s : Alarm) : Alarm :=
  { s with alarmState := clearAlarmState s.alarmState mask }

/-! ### Checking the lines -/

/-- One turn of the loop of `ADC_Check`: a line that is open hides the relaxation of later ones. -/
def adcCheckLine (adc : Adc) (f : Zone) (s : Alarm) (i : Line) : Alarm :=
  let invd := s.adcInvdCrt f ||
    decide ((adc.crtVal f i).toInt - (adc.baseVal f i).toInt > s.alarmThresholdUpDif.toNat)
  let opn := s.adcOpenCrt f || decide ((adc.crtVal f i).toInt < openValMaxKg)
  let rlx := s.adcRelaxCrt f || (!opn &&
    decide ((adc.baseVal f i).toInt - (adc.crtVal f i).toInt > s.alarmThresholdDownDif.toNat))
  { s with
    adcInvdCrt := Function.update s.adcInvdCrt f invd
    adcOpenCrt := Function.update s.adcOpenCrt f opn
    adcRelaxCrt := Function.update s.adcRelaxCrt f rlx }

/-- `ADC_Check` after `updateCrtSmp`. -/
def adcCheckLines (adc : Adc) (f : Zone) (s : Alarm) : Alarm :=
  ((List.finRange 6).filter fun i : Line => i.val < s.w4W6.lineCount).foldl (adcCheckLine adc f)
    { s with
      adcInvdCrt := Function.update s.adcInvdCrt f false
      adcOpenCrt := Function.update s.adcOpenCrt f false
      adcRelaxCrt := Function.update s.adcRelaxCrt f false }

end Alarm

end VectorFence
