import VectorFence.Calibration
import VectorFence.CString
import VectorFence.Lcd.MainTask
import VectorFence.Log.Clear
import VectorFence.Station

/-! What the keys change beside the screen. An editor works on copies (`…_temp`) of the values it
    shows and puts them in place when ENTER leaves it:

        value ──ENTER, or a menu──▶ copy ──UP, DOWN──▶ copy ──ENTER──▶ value, EEPROM

    A copy that was not taken when the editor was opened is from an earlier time, and an editor puts
    all its copies in place, not only the one in the row that was edited. What is only shown and the
    network and clock editors are left out; the latter end with a reset. -/

namespace VectorFence

/-- The copies the editors work on. -/
structure Temps where
  fieldNum : Zone → UInt8
  alarmDelay : Zone → UInt16
  alarmSensitivity : Zone → UInt8
  buFangFlag : Zone → Switch
  flagFcgjsn : Switch
  alarmThresholdUpDif : UInt16
  alarmThresholdDownDif : UInt16
  tensionMaxRange : CStr
  baseAutoCalibrateTime : CStr

/-- The device with its operator panel; `running` ends with a reset of the system. -/
structure Panel where
  lcd : Lcd
  temps : Temps
  station : Station
  running : Bool

namespace Temps

def powerOn : Temps where
  fieldNum _ := 0
  alarmDelay _ := alarmDurationDefS
  alarmSensitivity _ := 0
  buFangFlag _ := .off
  flagFcgjsn := .off
  alarmThresholdUpDif := 0
  alarmThresholdDownDif := 0
  tensionMaxRange := []
  baseAutoCalibrateTime := []

end Temps

/-- `ON` for `OFF` and the other way round. -/
def Switch.toggle : Switch → Switch
  | .off => .on
  | .on => .off

namespace Dev

/-- `ClearLog(logType)`. -/
def clearLog (t : LogType) (d : Dev) : Dev :=
  let r := Log.fastClearLog d.mem d.log t
  { d with mem := r.1, log := r.2 }

end Dev

namespace Panel

open Lcd CStr

def onDev (op : Dev → Dev) (p : Panel) : Panel := { p with station := p.station.onDev op }

/-- A system reset, as at the end of `lwip_reset_netif_ipaddr`. -/
def reset (p : Panel) : Panel := { p with running := false }

/-! ### Zone parameters -/

/-- The copies `DiaplaySetFangQuPara` takes. -/
def copyZonePara (p : Panel) : Panel :=
  { p with
    temps := { p.temps with
      fieldNum := p.station.dev.para.fieldNum
      alarmDelay := p.station.dev.para.alarmDelay } }

/-- ENTER on a zone screen: the sensitivities are copied for every row, the others for their own. -/
def openZonePara (row : UInt8) (p : Panel) : Panel :=
  let p := { p with temps := { p.temps with alarmSensitivity := p.station.dev.para.alarmSensitivity } }
  if row = 1 then { p with temps := { p.temps with fieldNum := p.station.dev.para.fieldNum } }
  else if row = 2 then { p with temps := { p.temps with alarmDelay := p.station.dev.para.alarmDelay } }
  else p

/-- All three copies of both zones are put in place. -/
def acceptZonePara (p : Panel) : Panel :=
  p.onDev fun d =>
    let d := { d with
      para := { d.para with
        fieldNum := p.temps.fieldNum
        alarmDelay := p.temps.alarmDelay
        alarmSensitivity := p.temps.alarmSensitivity } }
    let d := d.setFieldNum 0 (d.para.fieldNum 0)
    let d := d.setAlarmDelay 0 (d.para.alarmDelay 0)
    d.storePara

/-- `if(v < last) v++; else v = 1;` -/
def up8 (last v : UInt8) : UInt8 := if v < last then v + 1 else 1

/-- `if(v > 1) v--; else v = last;` -/
def down8 (last v : UInt8) : UInt8 := if v > 1 then v - 1 else last

def up16 (last v : UInt16) : UInt16 := if v < last then v + 1 else 1

def down16 (last v : UInt16) : UInt16 := if v > 1 then v - 1 else last

/-- UP or DOWN on the copy in the row; the largest values are 80, 999 and 10. -/
def stepZonePara (num : UInt8 → UInt8 → UInt8) (dly : UInt16 → UInt16 → UInt16) (f : Zone) (row : UInt8)
    (t : Temps) : Temps :=
  if row = 1 then { t with fieldNum := Function.update t.fieldNum f (num 80 (t.fieldNum f)) }
  else if row = 2 then { t with alarmDelay := Function.update t.alarmDelay f (dly 999 (t.alarmDelay f)) }
  else if row = 3 then
    { t with alarmSensitivity := Function.update t.alarmSensitivity f (num 10 (t.alarmSensitivity f)) }
  else t

def zoneEditor (f : Zone) (k : Key) (s : Lcd) (p : Panel) : Panel :=
  match s.flagPageState, k with
  | .normalState, .esc => p.copyZonePara
  | .normalState, .enter => p.openZonePara s.rowPoint
  | .modifyState, .enter => p.acceptZonePara
  | .modifyState, .up =>
      if s.rowFxPos = 1 then { p with temps := stepZonePara up8 up16 f s.rowPoint p.temps } else p
  | .modifyState, .down =>
      if s.rowFxPos = 1 then { p with temps := stepZonePara down8 down16 f s.rowPoint p.temps } else p
  | _, _ => p

/-! ### Arming -/

/-- ENTER on the arming screen: the flag of the tamper alarm is copied in its own row only. -/
def openArming (row : UInt8) (p : Panel) : Panel :=
  let a := p.station.dev.alarm
  { p with
    temps := { p.temps with
      buFangFlag := a.buFangFlag
      flagFcgjsn := if row = 3 then a.flagFcgjsn else p.temps.flagFcgjsn } }

def cancelArming (p : Panel) : Panel :=
  let a := p.station.dev.alarm
  { p with temps := { p.temps with flagFcgjsn := a.flagFcgjsn, buFangFlag := a.buFangFlag } }

/-- Each flag that differs from its copy is switched. -/
def acceptArming (p : Panel) : Panel :=
  p.onDev fun d =>
    let t := p.temps
    let d := if d.alarm.flagFcgjsn ≠ t.flagFcgjsn then d.fangChai t.flagFcgjsn else d
    let d := if d.alarm.buFangFlag 0 ≠ t.buFangFlag 0 then d.push 0 (t.buFangFlag 0) else d
    if d.alarm.buFangFlag 1 ≠ t.buFangFlag 1 then d.push 1 (t.buFangFlag 1) else d

def stepArming (s : Lcd) (t : Temps) : Temps :=
  let toggleZone (f : Zone) :=
    { t with buFangFlag := Function.update t.buFangFlag f (t.buFangFlag f).toggle }
  if s.rowPoint = 1 ∧ s.rowFxPos = 1 then toggleZone 0
  else if s.rowPoint = 2 ∧ s.rowFxPos = 1 then toggleZone 1
  else if s.rowPoint = 3 then { t with flagFcgjsn := t.flagFcgjsn.toggle }
  else t

def armingEditor (k : Key) (s : Lcd) (p : Panel) : Panel :=
  match s.flagPageState, k with
  | .normalState, .enter => p.openArming s.rowPoint
  | .modifyState, .esc => p.cancelArming
  | .modifyState, .enter => p.acceptArming
  | .modifyState, .up | .modifyState, .down => { p with temps := stepArming s p.temps }
  | _, _ => p

/-! ### Thresholds -/

/-- UP on the units or the tenths of a threshold. -/
def upThreshold (fx : ℤ) (v : UInt16) : UInt16 :=
  if fx = 1 then (if v / 10 < 49 then v + 10 else v % 10)
  else if fx = 2 then (if v % 10 < 9 then v + 1 else v / 10 * 10)
  else v

def downThreshold (fx : ℤ) (v : UInt16) : UInt16 :=
  if fx = 1 then (if v / 10 > 1 then v - 10 else 490 + v % 10)
  else if fx = 2 then (if v % 10 > 0 then v - 1 else v + 9)
  else v

def openThreshold (row : UInt8) (p : Panel) : Panel :=
  let a := p.station.dev.alarm
  if row = 1 then { p with temps := { p.temps with alarmThresholdUpDif := a.alarmThresholdUpDif } }
  else if row = 2 then { p with temps := { p.temps with alarmThresholdDownDif := a.alarmThresholdDownDif } }
  else p

def cancelThreshold (p : Panel) : Panel :=
  let a := p.station.dev.alarm
  { p with
    temps := { p.temps with
      alarmThresholdUpDif := a.alarmThresholdUpDif
      alarmThresholdDownDif := a.alarmThresholdDownDif } }

def acceptThreshold (p : Panel) : Panel :=
  p.onDev fun d =>
    let d := { d with
      alarm := { d.alarm with
        alarmThresholdUpDif := p.temps.alarmThresholdUpDif
        alarmThresholdDownDif := p.temps.alarmThresholdDownDif } }
    let d := d.setAlmThrdUpDif d.alarm.alarmThresholdUpDif
    d.setAlmThrdDwDif d.alarm.alarmThresholdDownDif

def stepThreshold (digit : ℤ → UInt16 → UInt16) (s : Lcd) (t : Temps) : Temps :=
  if s.rowPoint = 1 then { t with alarmThresholdUpDif := digit s.rowFxPos t.alarmThresholdUpDif }
  else if s.rowPoint = 2 then { t with alarmThresholdDownDif := digit s.rowFxPos t.alarmThresholdDownDif }
  else t

def thresholdEditor (k : Key) (s : Lcd) (p : Panel) : Panel :=
  match s.flagPageState, k with
  | .normalState, .enter => p.openThreshold s.rowPoint
  | .modifyState, .esc => p.cancelThreshold
  | .modifyState, .enter => p.acceptThreshold
  | .modifyState, .up => { p with temps := stepThreshold upThreshold s p.temps }
  | .modifyState, .down => { p with temps := stepThreshold downThreshold s p.temps }
  | _, _ => p

/-! ### Switch types -/

/-- The editor works on `SW_Type` itself. -/
def setSwType (i : Fin 2) (v : Int8) (p : Panel) : Panel :=
  { p with station := { p.station with swType := Function.update p.station.swType i v } }

def stepSwType (next : Int8 → Int8) (row : UInt8) (p : Panel) : Panel :=
  if row = 1 then p.setSwType 0 (next (p.station.swType 0))
  else if row = 2 then p.setSwType 1 (next (p.station.swType 1))
  else p

/-- `setSWValue((SW_Type[1] << 8) | SW_Type[0])`; a negative `SW_Type[0]` fills the high byte. -/
def acceptSwType (pins : Fin 2 → Bool) (p : Panel) : Panel :=
  let sw1 := p.station.swType 0
  { p with station := p.station.setSWValue pins sw1 (if sw1 < 0 then -1 else p.station.swType 1) }

def swTypeEditor (pins : Fin 2 → Bool) (k : Key) (s : Lcd) (p : Panel) : Panel :=
  match s.flagPageState, k with
  | .modifyState, .enter => p.acceptSwType pins
  | .modifyState, .up => p.stepSwType (fun v => if v + 1 > 8 then 0 else v + 1) s.rowPoint
  | .modifyState, .down => p.stepSwType (fun v => if v - 1 < 0 then 8 else v - 1) s.rowPoint
  | _, _ => p

/-! ### Numbers entered digit by digit -/

def upDigit (last c : UInt8) : UInt8 := if c + 1 > last then 48 else c + 1

def downDigit (last c : UInt8) : UInt8 := if c - 1 < 48 then last else c - 1

/-- UP or DOWN on the digit that is marked, of which there are `n`; the first one goes up to `first`. -/
def stepDigit (move : UInt8 → UInt8 → UInt8) (n : ℤ) (first : UInt8) (fx : ℤ) (s : CStr) : CStr :=
  if fx = 1 then s.modify 0 (move first)
  else if 2 ≤ fx ∧ fx ≤ n then s.modify (fx - 1).toNat (move 57)
  else s

def fullScaleEditor (k : Key) (s : Lcd) (p : Panel) : Panel :=
  let put (v : CStr) : Panel := { p with temps := { p.temps with tensionMaxRange := v } }
  match k with
  | .enter => p.onDev (Dev.setTensionMaxRange (UInt16.ofInt (atoi p.temps.tensionMaxRange * 10)))
  | .up => put (stepDigit upDigit 3 49 s.rowFxPos p.temps.tensionMaxRange)
  | .down => put (stepDigit downDigit 3 49 s.rowFxPos p.temps.tensionMaxRange)
  | _ => p

def calibrateTimeEditor (k : Key) (s : Lcd) (p : Panel) : Panel :=
  let put (v : CStr) : Panel := { p with temps := { p.temps with baseAutoCalibrateTime := v } }
  match k with
  | .enter => p.onDev (Dev.setBaseAutoCalibrateTime (u16 p.temps.baseAutoCalibrateTime))
  | .up => put (stepDigit upDigit 5 53 s.rowFxPos p.temps.baseAutoCalibrateTime)
  | .down => put (stepDigit downDigit 5 53 s.rowFxPos p.temps.baseAutoCalibrateTime)
  | _ => p

/-! ### The menus -/

/-- What a key does to the zone parameters and their copies on the current screen `s`. -/
def zoneEffect (k : Key) (s : Lcd) (p : Panel) : Panel :=
  match s.currentScreen, k with
  | .setScreen, .enter => if s.rowPoint = 2 then p.copyZonePara else p
  | .setFangQuParaScreen, .up | .setFangQuParaScreen, .down => p.copyZonePara
  | .setAFangQuParaScreen, k => p.zoneEditor 0 k s
  | .setBFangQuParaScreen, k => p.zoneEditor 1 k s
  | _, _ => p

/-- ENTER in the menu of settings prepares the two editors of digits. -/
def enterSetMenu (row : UInt8) (p : Panel) : Panel :=
  let d := p.station.dev
  if row = 8 then
    { p with temps := { p.temps with tensionMaxRange := dec 3 (d.adc.tensionMaxRange.toNat / 10) } }
  else if row = 9 then
    { p with temps := { p.temps with baseAutoCalibrateTime := dec 5 d.adc.baseAutoCalibrateTime.toNat } }
  else p

/-- ENTER in a menu whose rows act on the device. -/
def enterRows (ops : List (Dev → Dev)) (row : UInt8) (p : Panel) : Panel :=
  (choice ops row).elim p p.onDev

/-- LEFT and RIGHT silence the sirens. -/
def silence (k : Key) (p : Panel) : Panel :=
  match k with
  | .left => p.onDev (Dev.resetSiren 0)
  | .right => p.onDev (Dev.resetSiren 1)
  | _ => p

def datumRow (e : Env) (f : Zone) (d : Dev) : Dev :=
  if e.calibrateEn f = 0 then d else d.updateBaseVal f

/-- What a key does to all else. -/
def otherEffect (e : Env) (pins : Fin 2 → Bool) (k : Key) (s : Lcd) (p : Panel) : Panel :=
  match s.currentScreen, k with
  | .runScreen, k => p.silence k
  | .alarmTypeListScreen, k => if e.alarmList = 0 then p else p.silence k
  | .setScreen, .enter => p.enterSetMenu s.rowPoint
  | .setBuFangParaScreen, k => p.armingEditor k s
  | .setAlarmThresholdScreen, k => p.thresholdEditor k s
  | .setClearRecordScreen, .enter => p.enterRows [id, id, Dev.clearLog .FC] s.rowPoint
  | .clearDuanLuAlarmRecordScreen, .enter =>
      p.enterRows [Dev.clearLog .AIVD, Dev.clearLog .BIVD] s.rowPoint
  | .clearDuanXianAlarmRecordScreen, .enter =>
      p.enterRows [Dev.clearLog .AOPN, Dev.clearLog .BOPN] s.rowPoint
  | .zeroCalibrationScreen, .enter => p.enterRows [Dev.updateZeroVal 0, Dev.updateZeroVal 1] s.rowPoint
  | .datumCalibrationScreen, .enter => p.enterRows [datumRow e 0, datumRow e 1] s.rowPoint
  | .setExtDeviceTypeScreen, k => p.swTypeEditor pins k s
  | .setFullScaleScreen, k => p.fullScaleEditor k s
  | .setBaseAutoCalibrateTimeScreen, k => p.calibrateTimeEditor k s
  | .setIpAddrScreen, .enter | .setSubnetMaskScreen, .enter | .setGateWayScreen, .enter => p.reset
  | _, _ => p

/-- One turn of the loop of `main_task`. -/
def turn (e : Env) (pins : Fin 2 → Bool) (k : Key) (p : Panel) : Panel :=
  let s := idleTurn e k p.lcd
  { otherEffect e pins k s (p.zoneEffect k s) with lcd := keyPress e k s }

/-- The same turn, followed for the zone parameters only. -/
def zoneTurn (e : Env) (k : Key) (p : Panel) : Panel :=
  let s := idleTurn e k p.lcd
  { p.zoneEffect k s with lcd := keyPress e k s }

end Panel

end VectorFence
