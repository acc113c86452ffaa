import VectorFence.Areas
import VectorFence.Switches

/-! A start of the device, as far as it is about the stored parameters, and the return to the factory
    defaults, which erases the areas and starts the device again.

        main: readConfigCode ── Adc_Init ── ALARM_Init ── lwip_comm_ip_init
                  config       zero, base    zones, control,     net
                               range, time   switches, threshold

    Each area has its own test for contents that were erased, and its own defaults, which are
    stored. `Area.init` is what becomes of an area; `restart_boot` says that a start does this to
    every area and nothing else. The start of the logs, `Log_Init`, is in `Log.Basic`. -/

namespace VectorFence

/-! ### The functions -/

namespace Eeprom

/-- `EraseEEPormParas()`. The MAC address and the config code are left, and most of the zone
    parameters. -/
def eraseEEPormParas (m : Eeprom) : Eeprom :=
  let m := eraseEEProm m (netParaAddr + 6) (18 - 6)
  let m := eraseEEProm m aAdcZeroAddr 48
  let m := eraseEEProm m almThrdAddr 4
  let m := eraseEEProm m tensionMaxRangeAddr 2
  let m := eraseEEProm m baseAutoCalibrateTimeAddr 2
  let m := eraseEEProm m fieldParaAddr 4
  let m := eraseEEProm m controlParaAddr 1
  eraseEEProm m swValAddr 2

end Eeprom

open Eeprom

namespace Dev

def readConfigCode (d : Dev) : Dev :=
  let d := { d with alarm := { d.alarm with configCode := (readConfigCodeToEEProm d.mem).toBitVec } }
  if d.alarm.configCode = 0xFF then
    { d with
      alarm := { d.alarm with configCode := 0x01 }
      mem := writeConfigCodeToEEProm d.mem 0x01 }
  else d

def assignZeroVal (i : Zone) (v : Line → Int16) (d : Dev) : Dev :=
  { d with adc := { d.adc with zeroVal := Function.update d.adc.zeroVal i v } }

def assignBaseVal (i : Zone) (v : Line → Int16) (d : Dev) : Dev :=
  { d with adc := { d.adc with baseVal := Function.update d.adc.baseVal i v } }

def initAdcZero (i : Zone) (d : Dev) : Dev :=
  let d := d.assignZeroVal i (readAdcZeroFromEEProm d.mem i)
  if (d.adc.zeroVal i 0).toUInt16 = 0xffff then
    writeAdcZeroToEEProm i (d.assignZeroVal i fun _ => 0) else d

def initAdcBase (i : Zone) (d : Dev) : Dev :=
  let d := d.assignBaseVal i (readAdcBaseFromEEProm d.mem i)
  if (d.adc.baseVal i 0).toUInt16 = 0xffff then
    writeAdcBaseToEEProm i (d.assignBaseVal i fun _ => 0) else d

/-- One turn of the loop of `Adc_Init`. -/
def initAdcZone (d : Dev) (i : Zone) : Dev :=
  let d := (d.initAdcZero i).initAdcBase i
  { d with adc := { d.adc with calibrateEn := Function.update d.adc.calibrateEn i 1 } }

def initTensionMaxRange (d : Dev) : Dev :=
  let d := { d with adc := { d.adc with tensionMaxRange := readTensionMaxRangeFromEEProm d.mem } }
  if d.adc.tensionMaxRange = 0xffff then d.setTensionMaxRange tensionMaxRangeDef else d

def initBaseAutoCalibrateTime (d : Dev) : Dev :=
  let d := { d with adc := { d.adc with baseAutoCalibrateTime := readBaseAutoCalibrateTimeFromEEProm d.mem } }
  if d.adc.baseAutoCalibrateTime = 0xffff then d.setBaseAutoCalibrateTime 30 else d

/-- `Adc_Init()`. -/
def adcInit (d : Dev) : Dev :=
  initBaseAutoCalibrateTime (initTensionMaxRange (initAdcZone (initAdcZone d 0) 1))

/-- The part of `ALARM_Init` for the zone parameters. -/
def initFieldPara (d : Dev) : Dev :=
  let r := FieldPara.alarmInit d.mem d.para
  { d with mem := r.1, para := r.2 }

/-- The part of `ALARM_Init` for the number of wires. -/
def initW4W6 (d : Dev) : Dev :=
  { d with alarm := { d.alarm with w4W6 := if d.alarm.configCode.getLsbD 1 then .isW6 else .isW4 } }

/-- The part of `ALARM_Init` for the thresholds. -/
def initAlmThrd (d : Dev) : Dev :=
  let thresholds := readAlmThrdFromEEProm d.mem
  let d := { d with
    alarm := { d.alarm with alarmThresholdUpDif := thresholds.1, alarmThresholdDownDif := thresholds.2 } }
  let d := if d.alarm.alarmThresholdUpDif = 0xffff then d.setAlmThrdUpDif 50 else d
  if d.alarm.alarmThresholdDownDif = 0xffff then d.setAlmThrdDwDif 50 else d

end Dev

/-- `ALARM_Init()`, for a device with a single zone or with two. -/
def Station.alarmInit (pins : Fin 2 → Bool) (fieldFlagS0D1 : Bool) (st : Station) : Station :=
  let st := st.onDev fun d => d.initFieldPara.initControlPara fieldFlagS0D1
  (st.initSwType pins).onDev fun d => d.initW4W6.initAlmThrd

namespace LwipDev

instance neZero_oui : NeZero 3 := ⟨Nat.succ_ne_zero 2⟩

/-- `mac_def`. -/
def macDef : Fin 3 → UInt8 := ![0x44, 0x54, 0xA5]

/-- The first three bytes of the MAC address. -/
def oui (l : LwipDev) : Fin 3 → UInt8 := ![l.mac 0, l.mac 1, l.mac 2]

def setOui (v : Fin 3 → UInt8) (l : LwipDev) : LwipDev :=
  { l with mac := ![v 0, v 1, v 2, l.mac 3, l.mac 4, l.mac 5] }

/-- `lwip_comm_default_ip_set`, `sn0` being a part of the number of the chip. -/
def lwipCommDefaultIpSet (sn0 : UInt32) (l : LwipDev) : LwipDev :=
  let oui := if l.oui = ![0xFF, 0xFF, 0xFF] then macDef else l.oui
  { mac := ![oui 0, oui 1, oui 2, (sn0 >>> 16 &&& 0xFF).toUInt8, (sn0 >>> 8 &&& 0xFFF).toUInt8,
      (sn0 &&& 0xFF).toUInt8]
    ip := ![192, 168, 0, 30]
    netmask := ![255, 255, 255, 0]
    gateway := ![192, 168, 0, 1] }

end LwipDev

namespace Host

def dev (h : Host) : Dev := h.panel.station.dev

/-- `WriteNetParasToEEProm()`. -/
def storeNet (h : Host) : Host :=
  h.onPanel fun p => p.onDev fun d => { d with mem := LwipDev.writeNetParasToEEProm d.mem h.lwipdev }

/-- The correction of the MAC address in `lwip_comm_ip_init`; the first ones began with `55:39:72`. -/
def repairMac (h : Host) : Host :=
  if h.lwipdev.oui = ![0x55, 0x39, 0x72] then
    (h.setLwipdev (h.lwipdev.setOui LwipDev.macDef)).storeNet else h

/-- The defaults in `lwip_comm_ip_init`, which are stored. -/
def defaultIp (sn0 : UInt32) (h : Host) : Host :=
  if h.lwipdev.ip = ![0xFF, 0xFF, 0xFF, 0xFF] then
    (h.setLwipdev (h.lwipdev.lwipCommDefaultIpSet sn0)).storeNet else h

/-- `lwip_comm_ip_init()`. -/
def lwipCommIpInit (sn0 : UInt32) (h : Host) : Host :=
  ((h.setLwipdev (LwipDev.readNetParasFromEEProm h.mem)).repairMac).defaultIp sn0

/-- The variables as the program starts. -/
def powerOn (m : Eeprom) : Host where
  panel :=
    { lcd := .powerOn
      temps := .powerOn
      station :=
        { dev :=
            { mem := m
              log := .powerOn
              rtcTempStr := List.replicate 19 0
              para := .powerOn
              adc := { Adc.default with tensionMaxRange := 0, calibrateEn := fun _ => 0 }
              alarm := { Alarm.default with
                configCode := 0
                flagFcgjsn := .off
                buFangFlag := fun _ => .off
                alarmThresholdUpDif := 0
                alarmThresholdDownDif := 0 }
              timer := .powerOn }
          swType := fun _ => 0
          swAlarm := fun _ => false
          ip := fun _ => 0
          ipChangeFlag := false }
      running := true }
  mac _ := 0
  netmask _ := 0
  gateway _ := 0
  ethIpAddr _ := 0
  ethSubnetMask _ := 0
  ethGateway _ := 0

/-- What a start does not read from the EEPROM: the levels of the switch inputs, the strap for a
    single zone, the number of the chip. -/
structure Hardware where
  pins : Fin 2 → Bool
  fieldFlagS0D1 : Bool
  sn0 : UInt32

/-- A start with what is in the EEPROM. -/
def restart (hw : Hardware) (m : Eeprom) : Host :=
  let h := powerOn m
  let st := h.panel.station.onDev fun d => d.readConfigCode.adcInit
  let h := { h with panel := { h.panel with station := st.alarmInit hw.pins hw.fieldFlagS0D1 } }
  h.lwipCommIpInit hw.sn0

/-- The variables of an area; the entries of the logs have none. -/
def vars (h : Host) : (a : Area) → Option a.Value
  | .net => some h.lwipdev
  | .config => some (UInt8.ofBitVec h.dev.alarm.configCode)
  | .zero f => some (h.dev.adc.zeroVal f)
  | .base f => some (h.dev.adc.baseVal f)
  | .threshold => some (h.dev.alarm.alarmThresholdUpDif, h.dev.alarm.alarmThresholdDownDif)
  | .control => some (h.dev.alarm.flagFcgjsn, h.dev.alarm.buFangFlag 1, h.dev.alarm.buFangFlag 0)
  | .switches => some h.panel.station.swType
  | .range => some h.dev.adc.tensionMaxRange
  | .time => some h.dev.adc.baseAutoCalibrateTime
  | .zones => some h.dev.para
  | .pointer t => some (UInt16.ofNat (h.dev.log.nextWriteAddrVal t))
  | .entry _ _ => none

end Host

/-! ### What becomes of an area -/

namespace Area

open FieldPara

/-- An area whose contents are told by what is read. -/
def initOf {a : Area} (test : a.Value → Bool) (fix keep : a.Value → a.Value)
    (hfix : ∀ v, test (fix v) = false)
    (hkeep : ∀ v, keep (fix v) = fix v) : layout.Init a where
  erased m := test (a.read m)
  fix := fix
  keep := keep
  erased_congr h := congrArg test (read_owner h)
  not_erased v m := (congrArg test (read_write a (fix v) m)).trans (hfix v)
  keep_fix := hkeep

def initConfig : layout.Init config :=
  initOf (fun v => v == 0xFF) (fun _ => 0x01) id (fun _ => rfl) fun _ => rfl

def initZero (f : Zone) : layout.Init (zero f) :=
  initOf (fun v => (v 0).toUInt16 == 0xffff) (fun _ _ => 0) id (fun _ => rfl) fun _ => rfl

def initBase (f : Zone) : layout.Init (base f) :=
  initOf (fun v => (v 0).toUInt16 == 0xffff) (fun _ _ => 0) id (fun _ => rfl) fun _ => rfl

def initRange : layout.Init range :=
  initOf (fun v => v == 0xffff) (fun _ => tensionMaxRangeDef) id (fun _ => rfl) fun _ => rfl

def initTime : layout.Init time :=
  initOf (fun v => v == 0xffff) (fun _ => 30) id (fun _ => rfl) fun _ => rfl

/-- The default of a threshold. -/
def almThrd (v : UInt16) : UInt16 := if v = 0xffff then 50 else v

theorem almThrd_ne (v : UInt16) : almThrd v ≠ 0xffff := by
  rw [almThrd]
  split_ifs with h
  · decide
  · exact h

def initThreshold : layout.Init threshold :=
  initOf (fun v => v.1 == 0xffff || v.2 == 0xffff) (fun v => (almThrd v.1, almThrd v.2)) id
    (fun v => by simp [almThrd_ne]) fun _ => rfl

/-- The two parts of a start that change the network parameters. -/
def fixNet (sn0 : UInt32) (v : LwipDev) : LwipDev :=
  let v := if v.oui = ![0x55, 0x39, 0x72] then v.setOui LwipDev.macDef else v
  if v.ip = ![0xFF, 0xFF, 0xFF, 0xFF] then v.lwipCommDefaultIpSet sn0 else v

theorem fin3_eta (v : Fin 3 → UInt8) : ![v 0, v 1, v 2] = v := by
  funext i
  fin_cases i <;> rfl

theorem oui_setOui (v : Fin 3 → UInt8) (l : LwipDev) : (l.setOui v).oui = v := fin3_eta v

theorem oui_default (sn0 : UInt32) (l : LwipDev) : (l.lwipCommDefaultIpSet sn0).oui =
    if l.oui = ![0xFF, 0xFF, 0xFF] then LwipDev.macDef else l.oui := fin3_eta _

theorem fixNet_oui (sn0 : UInt32) (v : LwipDev) : (fixNet sn0 v).oui ≠ ![0x55, 0x39, 0x72] := by
  have hdef : LwipDev.macDef ≠ ![0x55, 0x39, 0x72] := by decide
  have hrepair : (if v.oui = ![0x55, 0x39, 0x72] then v.setOui LwipDev.macDef else v).oui ≠ ![0x55,
    0x39, 0x72] := by
    split_ifs with h
    · rw [oui_setOui]
      exact hdef
    · exact h
  rw [fixNet]
  generalize (if v.oui = ![0x55, 0x39, 0x72] then v.setOui LwipDev.macDef else v) = v at hrepair
  split_ifs with hip
  · rw [oui_default]
    split_ifs
    · exact hdef
    · exact hrepair
  · exact hrepair

theorem fixNet_ip (sn0 : UInt32) (v : LwipDev) : (fixNet sn0 v).ip ≠ ![0xFF, 0xFF, 0xFF, 0xFF] := by
  rw [fixNet]
  generalize (if v.oui = ![0x55, 0x39, 0x72] then v.setOui LwipDev.macDef else v) = v
  split_ifs with hip
  · simp only [LwipDev.lwipCommDefaultIpSet]
    decide
  · exact hip

def initNet (sn0 : UInt32) : layout.Init net :=
  initOf (fun v => v.oui == ![0x55, 0x39, 0x72] || v.ip == ![0xFF, 0xFF, 0xFF, 0xFF]) (fixNet sn0) id
    (fun v => by simp [fixNet_oui, fixNet_ip]) fun _ => rfl

def initZones : layout.Init zones where
  erased m := at24cxxReadOneByte m (fieldParaAddr + 1) == 0xFF ||
    at24cxxReadOneByte m (fieldParaAddr + 2) == 0xFF
  fix _ := FieldPara.powerOn
  keep := id
  erased_congr {m m'} h := by
    have hbyte {i : ℕ} (hi : i < 16) :
        at24cxxReadOneByte m' (fieldParaAddr + i) = at24cxxReadOneByte m (fieldParaAddr + i) :=
      readOneByte_congr (g := zones) h hi
    rw [hbyte (by norm_num), hbyte (by norm_num)]
  not_erased _ m := by
    have hbyte {j : ℕ} (hj : j < 8) :
        at24cxxReadOneByte (writeFieldParaToEEProm m FieldPara.powerOn) (fieldParaAddr + j) =
          (FieldPara.powerOn.zoneBytes 0).getD j 0 := readOneByte_writeFieldPara m _ 0 hj
    simp only [layout, Area.write]
    rw [hbyte (by norm_num), hbyte (by norm_num)]
    rfl
  keep_fix _ := rfl

def initControl (fieldFlagS0D1 : Bool) : layout.Init control where
  erased m := at24cxxReadOneByte m controlParaAddr == 0xFF
  fix _ := (.on, if fieldFlagS0D1 then .off else .on, .on)
  keep v := (v.1, if fieldFlagS0D1 then .off else v.2.1, v.2.2)
  erased_congr {m m'} h := by
    have hbyte : at24cxxReadOneByte m' controlParaAddr = at24cxxReadOneByte m controlParaAddr :=
      readOneByte_congr (g := control) h (i := 0) (by decide)
    rw [hbyte]
  not_erased _ m := by
    simp only [layout, Area.write, writeControlParaToEEProm, at24cxxWrite,
      readOneByte_writeOneByte, if_true]
    cases fieldFlagS0D1 <;> rfl
  keep_fix _ := by cases fieldFlagS0D1 <;> rfl

def initSwitches : layout.Init switches where
  erased m := at24cxxReadOneByte m swValAddr == 0xFF
  fix _ := fun _ => 0
  keep := id
  erased_congr {m m'} h := by
    have hbyte : at24cxxReadOneByte m' swValAddr = at24cxxReadOneByte m swValAddr :=
      readOneByte_congr (g := switches) h (i := 0) (by decide)
    rw [hbyte]
  not_erased _ m := by
    simp only [layout, Area.write, writeSWValToEEProm, at24cxxWrite, readOneByte_writeOneByte]
    rfl
  keep_fix _ := rfl

/-- The logs are not touched. -/
def initNothing (a : Area) : layout.Init a := initOf (fun _ => false) id id (fun _ => rfl) fun _ => rfl

def init (hw : Host.Hardware) : (a : Area) → layout.Init a
  | net => initNet hw.sn0
  | config => initConfig
  | zero f => initZero f
  | base f => initBase f
  | threshold => initThreshold
  | control => initControl hw.fieldFlagS0D1
  | switches => initSwitches
  | range => initRange
  | time => initTime
  | zones => initZones
  | pointer t => initNothing (pointer t)
  | entry t k => initNothing (entry t k)

/-- The areas of the parameters, in the order of a start. -/
def paras : List Area :=
  [config, zero 0, base 0, zero 1, base 1, range, time, zones, control, switches, threshold, net]

theorem nodup_paras : paras.Nodup := by decide

end Area

/-! ### The functions do it -/

open Area

section Blocks

variable (d : Dev)

/-- A function that reads an area, and assigns and stores a default in its place. -/
theorem run_initOf {a : Area} (test : a.Value → Bool) (fix keep : a.Value → a.Value)
    (hfix : ∀ v, test (fix v) = false) (hkeep : ∀ v, keep (fix v) = fix v) (m : Eeprom) :
    (initOf test fix keep hfix hkeep).run m =
      if test (a.read m) then (a.write (fix (a.read m)) m, fix (a.read m)) else
      (m, keep (a.read m)) := rfl

theorem Dev.readConfigCode_eq : d.readConfigCode =
    { d with
      mem := (initConfig.run d.mem).1
      alarm := { d.alarm with configCode := (initConfig.run d.mem).2.toBitVec } } := by
  have hff (b : UInt8) : b.toBitVec = 0xFF ↔ b = 0xFF := (UInt8.toBitVec_inj (b := 0xFF))
  simp only [initConfig, run_initOf, Dev.readConfigCode, Area.read, beq_iff_eq, hff]
  split_ifs
  · rfl
  · rfl

theorem Dev.initAdcZero_eq (i : Zone) : d.initAdcZero i =
    { d.assignZeroVal i ((initZero i).run d.mem).2 with mem := ((initZero i).run d.mem).1 } := by
  simp only [initZero, run_initOf, Dev.initAdcZero, Dev.assignZeroVal, Function.update_self,
    Area.read, beq_iff_eq]
  split_ifs
  · simp only [Function.update_idem, Dev.writeAdcZeroToEEProm, Function.update_self]
    rfl
  · rfl

theorem Dev.initAdcBase_eq (i : Zone) : d.initAdcBase i =
    { d.assignBaseVal i ((initBase i).run d.mem).2 with mem := ((initBase i).run d.mem).1 } := by
  simp only [initBase, run_initOf, Dev.initAdcBase, Dev.assignBaseVal, Function.update_self,
    Area.read, beq_iff_eq]
  split_ifs
  · simp only [Function.update_idem, Dev.writeAdcBaseToEEProm, Function.update_self]
    rfl
  · rfl

theorem Dev.initTensionMaxRange_eq : d.initTensionMaxRange =
    { d with
      mem := (initRange.run d.mem).1
      adc := { d.adc with tensionMaxRange := (initRange.run d.mem).2 } } := by
  have hrun : initRange.run d.mem =
      if readTensionMaxRangeFromEEProm d.mem == 0xffff then
        (writeTensionMaxRangeToEEProm d.mem tensionMaxRangeDef, tensionMaxRangeDef)
      else (d.mem, readTensionMaxRangeFromEEProm d.mem) := rfl
  simp only [hrun, Dev.initTensionMaxRange, beq_iff_eq]
  split_ifs
  · rfl
  · rfl

theorem Dev.initBaseAutoCalibrateTime_eq : d.initBaseAutoCalibrateTime =
    { d with
      mem := (initTime.run d.mem).1
      adc := { d.adc with baseAutoCalibrateTime := (initTime.run d.mem).2 } } := by
  simp only [initTime, run_initOf, Dev.initBaseAutoCalibrateTime, Area.read, beq_iff_eq]
  split_ifs
  · rfl
  · rfl

/-- The parameters of the zones start from their initial values. -/
theorem Dev.initFieldPara_eq (h : d.para = .powerOn) : d.initFieldPara =
    { d with mem := (initZones.run d.mem).1, para := (initZones.run d.mem).2 } := by
  have hrun : FieldPara.alarmInit d.mem FieldPara.powerOn = initZones.run d.mem := by
    simp only [FieldPara.alarmInit, Layout.Init.run, initZones, Bool.or_eq_true, beq_iff_eq]
    split_ifs
    · rfl
    · rfl
  rw [Dev.initFieldPara, h, hrun]

theorem Dev.initControlPara_eq (fieldFlagS0D1 : Bool) : d.initControlPara fieldFlagS0D1 =
    { d with
      mem := ((initControl fieldFlagS0D1).run d.mem).1
      alarm := { d.alarm with
        flagFcgjsn := ((initControl fieldFlagS0D1).run d.mem).2.1
        buFangFlag :=
          ![((initControl fieldFlagS0D1).run d.mem).2.2.2,
            ((initControl fieldFlagS0D1).run d.mem).2.2.1] } } := by
  simp only [Dev.initControlPara, Layout.Init.run, initControl, beq_iff_eq, Dev.storedControl]
  split_ifs
  · rfl
  · rfl
  · have hupdate (a b : Switch) : Function.update ![a, b] (1 : Zone) .off = ![a, .off] := by
      funext i
      fin_cases i <;> rfl
    simp only [Dev.readControlPara, hupdate]
    rfl
  · rfl

theorem Dev.initAlmThrd_eq : d.initAlmThrd =
    { d with
      mem := (initThreshold.run d.mem).1
      alarm := { d.alarm with
        alarmThresholdUpDif := (initThreshold.run d.mem).2.1
        alarmThresholdDownDif := (initThreshold.run d.mem).2.2 } } := by
  have hwrite (v w : UInt16 × UInt16) : threshold.write v (threshold.write w d.mem) =
    threshold.write v d.mem :=
    layout.write_write threshold v w d.mem
  have hmem (d : Dev) : d.storeAlmThrd = { d with
      mem := threshold.write (d.alarm.alarmThresholdUpDif, d.alarm.alarmThresholdDownDif) d.mem } := rfl
  simp only [initThreshold, run_initOf, Dev.initAlmThrd, Area.read, Bool.or_eq_true,
    beq_iff_eq, almThrd,
    Dev.setAlmThrdUpDif, Dev.setAlmThrdDwDif, hmem]
  by_cases hup : (readAlmThrdFromEEProm d.mem).1 = 0xffff
  · by_cases hdown : (readAlmThrdFromEEProm d.mem).2 = 0xffff
    · simp only [hup, hdown, if_true, true_or, hwrite]
    · simp only [hup, hdown, if_true, if_false, true_or]
  · by_cases hdown : (readAlmThrdFromEEProm d.mem).2 = 0xffff
    · simp only [hup, hdown, if_true, if_false, or_true]
    · simp only [hup, hdown, if_false, or_self]
      rfl

theorem Station.initSwType_eq (pins : Fin 2 → Bool) (st : Station) : st.initSwType pins =
    updateSWAlarmState pins 0 (updateSWAlarmState pins 1
      { st with
        swType := (initSwitches.run st.dev.mem).2
        dev := { st.dev with mem := (initSwitches.run st.dev.mem).1 } }) := by
  have hzero : (![0, 0] : Fin 2 → Int8) = fun _ => 0 := by
    funext i
    fin_cases i <;> rfl
  simp only [Station.initSwType, Layout.Init.run, initSwitches, beq_iff_eq, hzero]
  split_ifs
  · rfl
  · rfl

end Blocks

namespace Host

variable (h : Host)

def setMem (m : Eeprom) (h : Host) : Host := h.onPanel fun p => p.onDev fun d => { d with mem := m }

theorem setLwipdev_setLwipdev (v w : LwipDev) : (h.setLwipdev v).setLwipdev w = h.setLwipdev w := rfl

/-- Network parameters that are assigned and stored. -/
def assignNet (v : LwipDev) : Host := (h.setMem (net.write v h.mem)).setLwipdev v

theorem repairMac_eq (v : LwipDev) : (h.setLwipdev v).repairMac =
    if v.oui = ![0x55, 0x39, 0x72] then h.assignNet (v.setOui LwipDev.macDef) else h.setLwipdev v := by
  rw [repairMac, lwipdev_setLwipdev, setLwipdev_setLwipdev]
  rfl

theorem defaultIp_eq (sn0 : UInt32) (v : LwipDev) : (h.setLwipdev v).defaultIp sn0 =
    if v.ip = ![0xFF, 0xFF, 0xFF, 0xFF] then h.assignNet
    (v.lwipCommDefaultIpSet sn0) else h.setLwipdev v := by
  rw [defaultIp, lwipdev_setLwipdev, setLwipdev_setLwipdev]
  rfl

theorem assignNet_setMem (v w : LwipDev) :
    (h.setMem (net.write w h.mem)).assignNet v = h.assignNet v := by
  have hwrite : net.write v (net.write w h.mem) = net.write v h.mem := layout.write_write net v w h.mem
  rw [assignNet, assignNet, ← hwrite]
  rfl

theorem lwipCommIpInit_eq (sn0 : UInt32) : h.lwipCommIpInit sn0 =
    (h.setMem ((initNet sn0).run h.mem).1).setLwipdev ((initNet sn0).run h.mem).2 := by
  obtain ⟨v, hv⟩ : ∃ v, LwipDev.readNetParasFromEEProm h.mem = v := ⟨_, rfl⟩
  have hread : net.read h.mem = v := hv
  have hip : (v.setOui LwipDev.macDef).ip = v.ip := rfl
  rw [initNet, run_initOf, hread, lwipCommIpInit, hv, repairMac_eq, fixNet]
  by_cases hmac : v.oui = ![0x55, 0x39, 0x72]
  · rw [if_pos hmac, if_pos hmac, if_pos (by simp [hmac]), assignNet, defaultIp_eq, hip,
      assignNet_setMem]
    split_ifs
    · rfl
    · rfl
  · rw [if_neg hmac, if_neg hmac, defaultIp_eq]
    by_cases hff : v.ip = ![0xFF, 0xFF, 0xFF, 0xFF]
    · rw [if_pos hff, if_pos hff, if_pos (by simp [hff])]
      rfl
    · rw [if_neg hff, if_neg (by simp [hmac, hff])]
      rfl

end Host

section Start

variable (hw : Host.Hardware) (m : Eeprom)

/-- The memory of a start that has done with some areas. -/
def Area.booted (is : List Area) : Eeprom := Layout.boot (Area.init hw) is m

/-- The value in use that a start finds for an area. -/
def Area.inUse (a : Area) : a.Value := ((Area.init hw a).run m).2

/-- It does not depend on what the start has done with other areas before. -/
theorem Area.run_booted (a : Area) (is : List Area) (hnodup : is.Nodup) :
    ((Area.init hw a).run (Area.booted hw m is)).2 = a.inUse hw m :=
  Layout.value_boot (Area.init hw) a hnodup m

theorem Dev.adcInit_eq (d : Dev) (h : d.mem = Area.booted hw m [config]) :
    d.adcInit = { d with
      mem := Area.booted hw m [config, zero 0, base 0, zero 1, base 1, range, time]
      adc := { d.adc with
        zeroVal := fun i => (zero i).inUse hw m
        baseVal := fun i => (base i).inUse hw m
        tensionMaxRange := range.inUse hw m
        baseAutoCalibrateTime := time.inUse hw m
        calibrateEn := fun _ => 1 } } := by
  have hzero (v : Zone → Line → Int16) : Function.update
      (Function.update v 0 ((init hw (zero 0)).run (Area.booted hw m [config])).2) 1
      ((init hw (zero 1)).run (Area.booted hw m [config, zero 0, base 0])).2 = fun i =>
      (zero i).inUse hw m := by
    funext i
    rcases zone_cases i with rfl | rfl
    · exact run_booted hw m (zero 0) _ (by decide)
    · exact run_booted hw m (zero 1) _ (by decide)
  have hbase (v : Zone → Line → Int16) : Function.update
      (Function.update v 0 ((init hw (base 0)).run (Area.booted hw m [config, zero 0])).2) 1
      ((init hw (base 1)).run (Area.booted hw m [config, zero 0, base 0, zero 1])).2 =
        fun i => (base i).inUse hw m := by
    funext i
    rcases zone_cases i with rfl | rfl
    · exact run_booted hw m (base 0) _ (by decide)
    · exact run_booted hw m (base 1) _ (by decide)
  have hen (v : Zone → UInt8) : Function.update (Function.update v 0 1) 1 1 = fun _ => 1 := by
    funext i
    rcases zone_cases i with rfl | rfl
    · rfl
    · rfl
  have hrange := run_booted hw m range [config, zero 0, base 0, zero 1, base 1] (by decide)
  have htime := run_booted hw m time [config, zero 0, base 0, zero 1, base 1, range] (by decide)
  rw [← hzero d.adc.zeroVal, ← hbase d.adc.baseVal, ← hrange, ← htime, ← hen d.adc.calibrateEn]
  simp only [Dev.adcInit, Dev.initAdcZone, Dev.initAdcZero_eq, Dev.initAdcBase_eq,
    Dev.initTensionMaxRange_eq,
    Dev.initBaseAutoCalibrateTime_eq, Dev.assignZeroVal, Dev.assignBaseVal, h]
  rfl

/-- The switch inputs are about the alarms only. -/
theorem Station.updateSWAlarmState_eq (pins : Fin 2 → Bool) (i : Fin 2) (st : Station) :
    ∃ alarmState alarmStateDelay swAlarm, st.updateSWAlarmState pins i =
      { st with
        dev := { st.dev with
          alarm := { st.dev.alarm with alarmState := alarmState, alarmStateDelay := alarmStateDelay } }
        swAlarm := swAlarm } := by
  rw [updateSWAlarmState]
  split_ifs
  · exact ⟨_, _, _, rfl⟩
  · exact ⟨_, _, _, rfl⟩

theorem Station.alarmInit_eq (st : Station) (pins : Fin 2 → Bool) (hpara : st.dev.para = .powerOn)
    (h : st.dev.mem = booted hw m [config, zero 0, base 0, zero 1, base 1, range, time]) :
    ∃ alarmState alarmStateDelay w4W6 swAlarm, st.alarmInit pins hw.fieldFlagS0D1 =
      { st with
        dev := { st.dev with
          mem := booted hw m
            [config, zero 0, base 0, zero 1, base 1, range, time, zones, control, switches, threshold]
          para := zones.inUse hw m
          alarm := { st.dev.alarm with
            flagFcgjsn := (control.inUse hw m).1
            buFangFlag := ![(control.inUse hw m).2.2, (control.inUse hw m).2.1]
            alarmThresholdUpDif := (threshold.inUse hw m).1
            alarmThresholdDownDif := (threshold.inUse hw m).2
            alarmState := alarmState
            alarmStateDelay := alarmStateDelay
            w4W6 := w4W6 } }
        swType := switches.inUse hw m
        swAlarm := swAlarm } := by
  let done : List Area := [config, zero 0, base 0, zero 1, base 1, range, time]
  have hzones := run_booted hw m zones done (by decide)
  have hcontrol := run_booted hw m control (done ++ [zones]) (by decide)
  have hswitches := run_booted hw m switches (done ++ [zones, control]) (by decide)
  have hthreshold := run_booted hw m threshold (done ++ [zones, control, switches]) (by decide)
  rw [← hzones, ← hcontrol, ← hswitches, ← hthreshold]
  choose alarmState alarmStateDelay swAlarm hupdate using updateSWAlarmState_eq pins
  simp only [alarmInit, initSwType_eq, onDev, Dev.initAlmThrd_eq, Dev.initW4W6, Dev.initControlPara_eq,
    Dev.initFieldPara_eq _ hpara, h, hupdate]
  exact ⟨_, _, _, _, rfl⟩

namespace Host

/-- A start initialises the areas of the parameters, and nothing else of the memory. The variables
    are then in use as the areas tell. -/
theorem restart_boot : (restart hw m).mem = Layout.boot (Area.init hw) paras m ∧
    ∀ a ∈ paras, (restart hw m).vars a = some (a.inUse hw m) := by
  let d := (powerOn m).panel.station.dev
  have hconfig : d.readConfigCode.mem = booted hw m [config] := congrArg Dev.mem d.readConfigCode_eq
  have hadc := Dev.adcInit_eq hw m d.readConfigCode hconfig
  obtain ⟨alarmState, alarmStateDelay, w4W6, swAlarm, halarm⟩ := Station.alarmInit_eq hw m
    ((powerOn m).panel.station.onDev fun d => d.readConfigCode.adcInit) hw.pins
    (by simp only [Station.onDev]; rw [hadc, d.readConfigCode_eq]; rfl)
    (by simp only [Station.onDev]; rw [hadc])
  have hnet := run_booted hw m net
    [config, zero 0, base 0, zero 1, base 1, range, time, zones, control, switches,
    threshold] (by decide)
  simp only [restart, lwipCommIpInit_eq, mem]
  rw [halarm]
  simp only [Station.onDev]
  rw [hadc, d.readConfigCode_eq]
  refine ⟨rfl, ?_⟩
  simp only [paras, List.forall_mem_cons]
  refine ⟨rfl, rfl, rfl, rfl, rfl, rfl, rfl, rfl, rfl, rfl, rfl, ?_, by simp⟩
  exact congrArg some hnet

end Host

end Start

/-! ### The factory defaults -/

namespace Eeprom

theorem eraseEEProm_apply (n : ℕ) (m : Eeprom) (a : ℕ) (ha : a + n ≤ 0x10000) (x : ℕ) :
    eraseEEProm m a n x = if a ≤ x ∧ x < a + n then 0xFF else m x := by
  induction n generalizing m a with
  | zero => rw [eraseEEProm, if_neg (by omega)]
  | succ n ih =>
    rw [eraseEEProm, ih _ (a + 1) (by omega), writeOneByte_apply _ (by omega)]
    split_ifs with h0 h1 h2 <;> first | rfl | omega

/-- What a return to the factory defaults erases. -/
def Cleared (x : ℕ) : Prop :=
  6 ≤ x ∧ x < 18 ∨ 0x20 ≤ x ∧ x < 0x55 ∨ 0x56 ≤ x ∧ x < 0x58 ∨ 0x5A ≤ x ∧ x < 0x5E ∨ 0x60 ≤ x ∧ x < 0x64

instance (x : ℕ) : Decidable (Cleared x) := by unfold Cleared; infer_instance

theorem eraseEEPormParas_apply (m : Eeprom) (x : ℕ) :
    eraseEEPormParas m x = if Cleared x then 0xFF else m x := by
  simp only [eraseEEPormParas, netParaAddr, aAdcZeroAddr, almThrdAddr, tensionMaxRangeAddr,
    baseAutoCalibrateTimeAddr, fieldParaAddr, controlParaAddr, swValAddr]
  rw [eraseEEProm_apply _ _ _ (by norm_num), eraseEEProm_apply _ _ _ (by norm_num),
    eraseEEProm_apply _ _ _ (by norm_num), eraseEEProm_apply _ _ _ (by norm_num),
    eraseEEProm_apply _ _ _ (by norm_num), eraseEEProm_apply _ _ _ (by norm_num),
    eraseEEProm_apply _ _ _ (by norm_num), eraseEEProm_apply _ _ _ (by norm_num)]
  simp only [← ite_or]
  refine if_congr ?_ rfl rfl
  rw [Cleared]
  omega

end Eeprom

namespace Area

/-- The factory defaults. -/
def factory (hw : Host.Hardware) : (a : Area) → a.Value
  | net =>
    { mac := ![0x44, 0x54, 0xA5, (hw.sn0 >>> 16 &&& 0xFF).toUInt8, (hw.sn0 >>> 8 &&& 0xFFF).toUInt8,
        (hw.sn0 &&& 0xFF).toUInt8]
      ip := ![192, 168, 0, 30]
      netmask := ![255, 255, 255, 0]
      gateway := ![192, 168, 0, 1] }
  | config => 0x01
  | zero _ | base _ => fun _ => 0
  | threshold => (50, 50)
  | control => (.on, if hw.fieldFlagS0D1 then .off else .on, .on)
  | switches => fun _ => 0
  | range => 200
  | time => 30
  | zones =>
    { fieldNum _ := 0
      alarmDelay _ := 30
      alarmSensitivity _ := 4
      tenValRange _ := ![100, 150] }
  | pointer _ => 0xFFFF
  | entry _ _ => ⟨List.replicate 20 0xFF, rfl⟩

/-- A device with a fully erased EEPROM gets the factory defaults. -/
theorem inUse_newEeprom (hw : Host.Hardware) {a : Area} (ha : a ∈ paras) :
    a.inUse hw Log.newEeprom = a.factory hw := by
  revert a
  simp only [paras, List.forall_mem_cons]
  exact ⟨rfl, rfl, rfl, rfl, rfl, rfl, rfl, rfl, rfl, rfl, rfl, rfl, by simp⟩

end Area

namespace Area

variable (hw : Host.Hardware) (m : Eeprom)

/-- These areas are erased as a whole. -/
theorem cleared_of_owner {a : Area} {x : ℕ} (ha : a ∈ paras) (hconfig : a ≠ config) (hnet : a ≠ net)
    (hzones : a ≠ zones) (hx : owner x = some a) : Cleared x := by
  obtain ⟨h0, h1⟩ := owner_inside hx
  rw [Cleared]
  cases a with
  | net => exact absurd rfl hnet
  | config => exact absurd rfl hconfig
  | zones => exact absurd rfl hzones
  | zero f | base f =>
    have hf := f.isLt
    simp only [start, len, aAdcZeroAddr, aAdcBaseAddr] at h0 h1
    omega
  | pointer t => simp [paras] at ha
  | entry t k => simp [paras] at ha
  | _ =>
    simp only [start, len, almThrdAddr, controlParaAddr, swValAddr, tensionMaxRangeAddr,
      baseAutoCalibrateTimeAddr] at h0 h1
    omega

theorem inUse_erased {a : Area} (ha : a ∈ paras) (hconfig : a ≠ config) (hnet : a ≠ net) :
    a.inUse hw (eraseEEPormParas m) = a.factory hw := by
  by_cases hzones : a = zones
  · subst hzones
    have herased : initZones.erased (eraseEEPormParas m) = true := by
      have hbyte : at24cxxReadOneByte (eraseEEPormParas m) (fieldParaAddr + 1) = 0xFF :=
        (readOneByte_eq _ (by decide)).trans ((eraseEEPormParas_apply m _).trans (if_pos (by decide)))
      simp only [initZones, hbyte, beq_self_eq_true, Bool.true_or]
    exact congrArg Prod.snd (if_pos herased : initZones.run (eraseEEPormParas m) = _)
  · have hagree : layout.Agree a Log.newEeprom (eraseEEPormParas m) := by
      intro x hx
      rw [eraseEEPormParas_apply, if_pos (cleared_of_owner ha hconfig hnet hzones hx)]
      rfl
    rw [← inUse_newEeprom hw ha]
    exact ((init hw a).run_congr hagree).1

/-- Of the network parameters only the first three bytes of the MAC address stay. -/
theorem inUse_net_erased : ∃ oui : Fin 3 → UInt8,
    net.inUse hw (eraseEEPormParas m) = (net.factory hw).setOui oui := by
  have hread : (net.read (eraseEEPormParas m)).ip = ![0xFF, 0xFF, 0xFF, 0xFF] := by
    funext i
    have hi := i.isLt
    have hbyte : at24cxxReadOneByte (eraseEEPormParas m) (netParaAddr + 6 + i) = 0xFF := by
      rw [readOneByte_eq _ (by rw [netParaAddr]; omega), eraseEEPormParas_apply, if_pos]
      rw [Cleared, netParaAddr]
      omega
    refine hbyte.trans ?_
    fin_cases i <;> rfl
  generalize hv : net.read (eraseEEPormParas m) = v at hread
  have hrun : net.inUse hw (eraseEEPormParas m) = fixNet hw.sn0 v := by
    rw [inUse, init, initNet, run_initOf, hv, if_pos (by simp [hread])]
  rw [hrun, fixNet]
  have hip : (if v.oui = ![0x55, 0x39, 0x72] then v.setOui LwipDev.macDef else v).ip = v.ip := by
    split_ifs
    · rfl
    · rfl
  rw [if_pos (hip.trans hread)]
  exact ⟨_, rfl⟩

end Area

namespace Host

/-- After a return to the factory defaults the parameters have them, except for the config code and
    the first three bytes of the MAC address. The next start finds the same and takes nothing for
    erased, and the logs are as they were. -/
theorem factory_reset (hw : Hardware) (h : Host) :
    ((∀ a ∈ paras, (restart hw Log.newEeprom).vars a = some (a.factory hw)) ∧
      (∀ a ∈ paras, a ≠ config → a ≠ net →
        (restart hw (eraseEEPormParas h.mem)).vars a = some (a.factory hw)) ∧
      ∃ oui, (restart hw (eraseEEPormParas h.mem)).lwipdev = (net.factory hw).setOui oui) ∧
    ((restart hw (restart hw (eraseEEPormParas h.mem)).mem).mem =
      (restart hw (eraseEEPormParas h.mem)).mem ∧
      ∀ a ∈ paras, (Area.init hw a).erased (restart hw (eraseEEPormParas h.mem)).mem = false ∧
        (restart hw (restart hw (eraseEEPormParas h.mem)).mem).vars a =
          (restart hw (eraseEEPormParas h.mem)).vars a) ∧
    ∀ x, 0xE0 ≤ x → (restart hw (eraseEEPormParas h.mem)).mem x = h.mem x := by
  obtain ⟨hmem, hvars⟩ := restart_boot hw (eraseEEPormParas h.mem)
  obtain ⟨hmem', hvars'⟩ := restart_boot hw (restart hw (eraseEEPormParas h.mem)).mem
  refine ⟨⟨fun a ha => ?_, fun a ha hconfig hnet => ?_, ?_⟩, ⟨?_, fun a ha => ⟨?_, ?_⟩⟩, fun x hx => ?_⟩
  · rw [(restart_boot hw Log.newEeprom).2 a ha, inUse_newEeprom hw ha]
  · rw [hvars a ha, inUse_erased hw h.mem ha hconfig hnet]
  · obtain ⟨oui, houi⟩ := inUse_net_erased hw h.mem
    exact ⟨oui, (Option.some.inj (hvars net (by decide))).trans houi⟩
  · rw [hmem', hmem, Layout.boot_boot _ nodup_paras]
  · rw [hmem]
    exact Layout.not_erased_boot _ ha nodup_paras _
  · rw [hvars' a ha, hvars a ha, hmem]
    exact congrArg some (Layout.value_boot _ a nodup_paras _)
  · have hother : ∀ a ∈ paras, owner x ≠ some a := by
      intro a ha howner
      rw [owner_log hx] at howner
      rcases of_ite howner with ⟨-, rfl⟩ | howner
      · simp [paras] at ha
      rcases of_ite howner with ⟨-, rfl⟩ | howner
      · simp [paras] at ha
      · simp at howner
    rw [hmem, Layout.boot_other _ hother, eraseEEPormParas_apply, if_neg]
    rw [Cleared]
    omega

end Host

end VectorFence
