import VectorFence.Iic.Basic
import VectorFence.Lwip
import VectorFence.Web.Address

/-! `SSIHandler` of `httpd_cgi_ssi.c`: what a page of the web server shows in the place of a tag. A
    tag with several values is one string, which the page takes apart:

        "200#30#30#30"          range, upper and lower threshold, time
        "1+30+4#2+30+4"         number, delay, sensitivity of zone A # of zone B
        "55+…#…@0+…#…@55+…#…"   current, zero and base values, each of six lines of two zones

    The sensor for the temperature, the pin for the number of zones and the value of
    `remote_shutdown` come from outside. -/

namespace VectorFence

open CStr

/-- The tags, in the order of `ppcTAGs`. -/
inductive Tag where
  | mac | ip | subMask | gateway | temperature | dateTime | alarmState | tension | controlState
  | hardwareVersion | softwareVersion | logType | log | webPageFlag | switches | fieldParas | logPageNum
  | logPageTotal | model | remoteShutdown | configCode | adcVals | calibrating
  deriving DecidableEq, Repr

/-- What `SSIHandler` reads beside the variables of the device. -/
structure SsiEnv where
  temp : UInt16
  fieldFlagS0D1 : Bool
  remoteShutdown : UInt8

/-- The web server: the device and the log that is shown. -/
structure Site where
  host : Host
  logType : UInt8

namespace Web

/-- `tag_insert` has one byte more, for the NUL. -/
def lwipHttpdMaxTagInsertLen : ℕ := 192

/-- `"%02X"`. -/
def hex2 (b : UInt8) : CStr :=
  let digit (d : ℕ) : UInt8 := UInt8.ofNat (if d < 10 then 48 + d else 55 + d)
  [digit (b.toNat / 16), digit (b.toNat % 16)]

/-- `"%d"`. -/
def num (n : ℕ) : CStr := dec 0 n

def macStr (mac : Fin 6 → UInt8) : CStr := AddrFormat.mac.join ((List.ofFn mac).map hex2)

def ipStr (ip : Fin 4 → UInt8) : CStr := AddrFormat.ip.join ((List.ofFn ip).map fun b => num b.toNat)

def tensionFields (d : Dev) : List CStr :=
  [num d.adc.tensionMaxRange.toNat, num d.alarm.alarmThresholdUpDif.toNat,
    num d.alarm.alarmThresholdDownDif.toNat, num d.adc.baseAutoCalibrateTime.toNat]

def tensionStr (d : Dev) : CStr := [35].intercalate (tensionFields d)

/-- `(SW_Type[1] << 8) | SW_Type[0]`, an `int`. -/
def packSwType (st : Station) : ℤ := ((st.swType 1).toInt32 <<< 8 ||| (st.swType 0).toInt32).toInt

def zoneFields (p : FieldPara) (i : Zone) : List CStr :=
  [num (p.fieldNum i).toNat, num (p.alarmDelay i).toNat, num (p.alarmSensitivity i).toNat]

/-- `getWebFieldParas`. -/
def getWebFieldParas (p : FieldPara) : CStr :=
  [35].intercalate [[43].intercalate (zoneFields p 0), [43].intercalate (zoneFields p 1)]

/-- The six values of a zone. -/
def lineStr (v : Line → Int16) : CStr := [43].intercalate ((List.ofFn v).map fun x => int x.toInt)

/-- `getWebAdcValStr`. -/
def getWebAdcValStr (a : Adc) : CStr :=
  [64].intercalate ([a.crtVal, a.zeroVal, a.baseVal].map fun v =>
    [35].intercalate [lineStr (v 0), lineStr (v 1)])

/-- `((W4_W6 << 1) & 0x02) | (FIELD_FLAG_S0D1 & 0x01)`. -/
def modelNum (e : SsiEnv) (wires : Wires) : ℕ :=
  (match wires with
    | .isW4 => 0
    | .isW6 => 2) + e.fieldFlagS0D1.toNat

def calibratingNum (a : Adc) : ℕ :=
  (a.calibrateEn 1).toNat <<< 12 ||| (a.calibrateEn 0).toNat <<< 8 ||| a.calibratingFlag.toNat

end Web

namespace Site

open Web

def dev (w : Site) : Dev := w.host.panel.station.dev

def onDev (op : Dev → Dev) (w : Site) : Site := { w with host := w.host.onPanel fun p => p.onDev op }

/-- The ring of `logType`. The arrays of `log.c` have five elements, which no function checks. -/
def ring (w : Site) : Option LogType :=
  if h : w.logType.toNat < 5 then some ⟨w.logType.toNat, h⟩ else none

/-- A function of `log.c` that reads a page of the log that is shown. -/
def readPage (read : Eeprom → LogType → Log → Log) (w : Site) : Site :=
  match w.ring with
  | some t => w.onDev fun d => { d with log := read d.mem t d.log }
  | none => w

/-- The page that is shown; it is read when there is none. -/
def showLog (w : Site) : Site :=
  if w.dev.log.crtWebPageLogData.headD 0 = 0 then w.readPage Log.readWebFirstPageLog else w

/-- `(u8)getWebLogPageTotal(logType)`. -/
def logPageTotal (w : Site) : ℕ :=
  (w.ring.map fun t => Log.getWebLogPageTotal w.dev.mem t w.dev.log).getD 0 % 256

/-- The text for a tag; only the log is read where it is shown. -/
def ssiText (e : SsiEnv) (w : Site) : Tag → CStr
  | .mac => macStr w.host.mac
  | .ip => ipStr w.host.panel.station.ip
  | .subMask => ipStr w.host.netmask
  | .gateway => ipStr w.host.gateway
  | .temperature => Iic.tempStr e.temp
  | .dateTime => (Log.cstr w.dev.rtcTempStr).take 19
  | .alarmState => num w.dev.alarm.alarmState.toNat
  | .tension => tensionStr w.dev
  | .controlState => num w.dev.controlPara.toNat
  | .hardwareVersion => lit "0.1"
  | .softwareVersion => lit "00.01"
  | .logType => num w.logType.toNat
  | .log => w.showLog.dev.log.crtWebPageLogData
  | .webPageFlag => num w.dev.log.webLogPageFlag.toNat
  | .switches => int (packSwType w.host.panel.station)
  | .fieldParas => getWebFieldParas w.dev.para
  | .logPageNum => num w.dev.log.crtWebLogPageNum
  | .logPageTotal => num w.logPageTotal
  | .model => num (modelNum e w.dev.alarm.w4W6)
  | .remoteShutdown => num e.remoteShutdown.toNat
  | .configCode => num w.dev.alarm.configCode.toNat
  | .adcVals => getWebAdcValStr w.dev.adc
  | .calibrating => num (calibratingNum w.dev.adc)

/-- `SSIHandler`. -/
def ssiHandler (e : SsiEnv) (t : Tag) (w : Site) : Site × CStr :=
  match t with
  | .log => (w.showLog, w.ssiText e .log)
  | t => (w, w.ssiText e t)

end Site

end VectorFence
