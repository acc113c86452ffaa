import VectorFence.Device

/-! What the front ends work on: the device with its switch inputs and its network address, and the
    setters of the parameters, each of which stores its value at once.

        0x1E        0x50        0x54     0x56      0x5A   0x5C   0x60
        config code thresholds  control  switches  range  time   zones

    A zone is addressed by its number; zone A is looked at first, and a number nobody has changes
    nothing. -/

namespace VectorFence

def configCodeAddr : ℕ := 0x001E
def almThrdAddr : ℕ := 0x0050
def controlParaAddr : ℕ := 0x0054
def swValAddr : ℕ := 0x0056
def tensionMaxRangeAddr : ℕ := 0x005A
def baseAutoCalibrateTimeAddr : ℕ := 0x005C

/-- `ON` is 1 and `OFF` is 0. -/
def Switch.bit : Switch → UInt8
  | .off => 0
  | .on => 1

/-- The device, the switch inputs of `alarm.c`, `lwipdev.ip` and `ip_change_flag`. -/
structure Station where
  dev : Dev
  swType : Fin 2 → Int8
  swAlarm : Fin 2 → Bool
  ip : Fin 4 → UInt8
  ipChangeFlag : Bool

namespace Dev

open Alarm AlarmWord Eeprom FieldPara

/-! ### Thresholds and calibration -/

/-- `WriteAlmThrdToEEProm()`. -/
def storeAlmThrd (d : Dev) : Dev :=
  { d with
    mem := at24cxxWrite d.mem almThrdAddr
      (u16Bytes d.alarm.alarmThresholdUpDif ++ u16Bytes d.alarm.alarmThresholdDownDif) }

def setAlmThrdUpDif (value : UInt16) (d : Dev) : Dev :=
  storeAlmThrd { d with alarm := { d.alarm with alarmThresholdUpDif := value } }

def setAlmThrdDwDif (value : UInt16) (d : Dev) : Dev :=
  storeAlmThrd { d with alarm := { d.alarm with alarmThresholdDownDif := value } }

def setTensionMaxRange (value : UInt16) (d : Dev) : Dev :=
  { d with
    adc := { d.adc with tensionMaxRange := value }
    mem := at24cxxWrite d.mem tensionMaxRangeAddr (u16Bytes value) }

def setBaseAutoCalibrateTime (value : UInt16) (d : Dev) : Dev :=
  { d with
    adc := { d.adc with baseAutoCalibrateTime := value }
    mem := at24cxxWrite d.mem baseAutoCalibrateTimeAddr (u16Bytes value) }

/-! ### Arming -/

/-- Bit 2 for the tamper alarm, bit 1 for zone B, bit 0 for zone A. -/
def controlPara (d : Dev) : UInt8 :=
  d.alarm.flagFcgjsn.bit <<< 2 ||| (d.alarm.buFangFlag 1).bit <<< 1 ||| (d.alarm.buFangFlag 0).bit

/-- `WriteControlParaToEEProm()`. -/
def storeControlPara (d : Dev) : Dev :=
  { d with mem := at24cxxWriteOneByte d.mem controlParaAddr d.controlPara }

/-- `Push_A_Start` / `Push_B_Start` and `Push_A_Stop` / `Push_B_Stop`. -/
def push (f : Zone) (sw : Switch) (d : Dev) : Dev :=
  storeControlPara
    { d with alarm := { d.alarm with buFangFlag := Function.update d.alarm.buFangFlag f sw } }

/-- `FangChai_Start` and `FangChai_Stop`. -/
def fangChai (sw : Switch) (d : Dev) : Dev :=
  storeControlPara { d with alarm := { d.alarm with flagFcgjsn := sw } }

/-- `modifyBFFlag`: 1 arms the zone, any other value disarms it. -/
def modifyBFFlag (fieldNum bfFlag : UInt8) (d : Dev) : Dev :=
  match d.zoneOf fieldNum with
  | some f => d.push f (if bfFlag = 1 then .on else .off)
  | none => d

def getBFFlag (d : Dev) (fieldNum : UInt8) : UInt8 :=
  match d.zoneOf fieldNum with
  | some f => (d.alarm.buFangFlag f).bit
  | none => 0

/-- `remoteShutdown(1)`; `remoteShutdown(0)` resets the system. -/
def shutdown (d : Dev) : Dev :=
  { d with alarm := { d.alarm with
      remoteShutdown := true
      flagFcgjsn := .off
      buFangFlag := fun _ => .off } }

/-- `setConfigCode`: bit 1 is the number of wires. -/
def setConfigCode (value : BitVec 8) (d : Dev) : Dev :=
  { d with
    alarm := { d.alarm with
      configCode := value
      w4W6 := if value.getLsbD 1 then .isW6 else .isW4 }
    mem := at24cxxWriteOneByte d.mem configCodeAddr (UInt8.ofBitVec value) }

/-! ### Zone parameters -/

def assignFieldNum (i : Zone) (fieldNum : UInt8) (d : Dev) : Dev :=
  { d with para := { d.para with fieldNum := Function.update d.para.fieldNum i fieldNum } }

def setFieldNum (i : Zone) (fieldNum : UInt8) (d : Dev) : Dev := (d.assignFieldNum i fieldNum).storePara

def assignAlarmSensitivity (i : Zone) (sensitivity : UInt8) (d : Dev) : Dev :=
  { d with para := { d.para with
      alarmSensitivity := Function.update d.para.alarmSensitivity i sensitivity } }

def setAlarmSensitivity (i : Zone) (sensitivity : UInt8) (d : Dev) : Dev :=
  (d.assignAlarmSensitivity i sensitivity).storePara

def modifyFieldNum (oldfieldNum newfieldNum : UInt8) (d : Dev) : Dev :=
  match d.zoneOf oldfieldNum with
  | some i => (d.assignFieldNum i newfieldNum).storePara
  | none => d.storePara

def getAlarmDelay (d : Dev) (fieldNum : UInt8) : UInt16 :=
  match d.zoneOf fieldNum with
  | some i => d.para.alarmDelay i
  | none => 0

def getPeerFieldNum (d : Dev) (fieldNum : UInt8) : UInt8 :=
  match d.zoneOf fieldNum with
  | some i => d.para.fieldNum (1 - i)
  | none => 0

/-- `getFieldIndex`: a number that is not zone A's is taken for zone B's. -/
def getFieldIndex (d : Dev) (fieldNum : UInt8) : Zone := if d.para.fieldNum 0 = fieldNum then 0 else 1

/-! ### Alarms of a zone -/

/-- The bits of a zone in an alarm word, the relaxation moved to bit 2. -/
def statusBits (state : AlarmWord) (f : Zone) : UInt8 :=
  UInt8.ofBitVec ((if f = 0 then state &&& 0xF3 ||| (state >>> 6 &&& 0x04)
    else (state &&& 0xF0) ||| (state >>> 2 &&& 0x03) ||| (state >>> 7 &&& 0x04)).setWidth 8)

def getAlarmStatus (d : Dev) (fieldNum : UInt8) : UInt8 :=
  match d.zoneOf fieldNum with
  | some f => statusBits d.alarm.alarmState f
  | none => 0

def getAlarmDelayedStatus (d : Dev) (fieldNum : UInt8) : UInt8 :=
  match d.zoneOf fieldNum with
  | some f => statusBits d.alarm.alarmStateDelay f
  | none => 0

/-- `Remove_Alarm_RL_A()` / `Remove_Alarm_RL_B()`. -/
def resetSiren (f : Zone) (d : Dev) : Dev := { d with alarm := d.alarm.removeAlarmRL f }

/-- `removeAlarmRL(fieldNum)`. -/
def removeAlarmRL (fieldNum : UInt8) (d : Dev) : Dev :=
  match d.zoneOf fieldNum with
  | some f => d.resetSiren f
  | none => d

end Dev

namespace Station

open Alarm AlarmWord

/-- A change of the device proper. -/
def onDev (op : Dev → Dev) (st : Station) : Station := { st with dev := op st.dev }

/-- A device with a blank EEPROM, nothing attached to its switch inputs. -/
def blank : Station where
  dev := Dev.blank
  swType _ := 0
  swAlarm _ := false
  ip := ![192, 168, 0, 30]
  ipChangeFlag := false

/-- `SW1_MASK` and `SW2_MASK`. -/
def swMask (swNum : Fin 2) : ℕ := if swNum = 0 then sw1Mask else sw2Mask

/-- `updateSWAlarmState`, with the level of the pins. -/
def updateSWAlarmState (pins : Fin 2 → Bool) (swNum : Fin 2) (st : Station) : Station :=
  { st with
    swAlarm := Function.update st.swAlarm swNum (pins swNum)
    dev := { st.dev with
      alarm :=
        if st.swType swNum ≠ 0 ∧ pins swNum then setAlarmStateUtilClear (swMask swNum) st.dev.alarm
        else st.dev.alarm.clear (swMask swNum) } }

/-- `setSWValue`, the two types being the bytes of `swVal`. -/
def setSWValue (pins : Fin 2 → Bool) (sw1 sw2 : Int8) (st : Station) : Station :=
  let st := { st with swType := ![sw1, sw2] }
  let st := updateSWAlarmState pins 0 (updateSWAlarmState pins 1 st)
  st.onDev fun d => { d with
    mem := Eeprom.at24cxxWrite d.mem swValAddr [(st.swType 0).toUInt8, (st.swType 1).toUInt8] }

end Station

end VectorFence
