import VectorFence.Eeprom

/-! The alarm log of `log.c`: five rings of 300 slots of 20 bytes in the EEPROM, a two-byte write
    pointer for each, and the web and LCD browsers that page through a ring from its newest entry.

    Reading never changes the EEPROM, so the readers take the memory `m` as a parameter and
    transform the RAM variables only. The page buffers are kept as what they are read as: the web
    page as its C string, the LCD page as three rows of 20 bytes.

        WriteLog    ──▶ slot at nextWriteAddrVal, then the pointer, low byte first
        ReadNextLog ──▶ one slot older (wraps at the base when the ring has been full)
        ReadPreviousLog ──▶ one slot newer (wraps at the top) -/

namespace VectorFence

/-- `LOG_TYPE_BOPN` … `LOG_TYPE_FC`, the indices of the per-type arrays. -/
abbrev LogType := Fin 5

instance LogType.neZero : NeZero 5 := ⟨Nat.succ_ne_zero 4⟩

namespace LogType

def BOPN : LogType := 0
def BIVD : LogType := 1
def AOPN : LogType := 2
def AIVD : LogType := 3
def FC : LogType := 4

end LogType

/-- `WEB_PAGE_READ_UP` / `LCD_PAGE_READ_UP` and their `DOWN` counterparts. -/
inductive ReadDir where | up | down
  deriving DecidableEq, Repr

def logEnd : UInt8 := 0x01
def logHead : UInt8 := 0x02
def logMiddle : UInt8 := 0x00

def logBlockStartAddr : ℕ := 0x00E0
def eachLogSize : ℕ := 20
def eachTypeLogTotal : ℕ := 300
def eachTypeLogBlockSize : ℕ := eachTypeLogTotal * eachLogSize
def logDataBasedAddr : ℕ := 0x0100
def eachWebPageLogNum : ℕ := 10
def eachLcdPageLogNum : ℕ := 3
def webPageMaxNum : ℕ := eachTypeLogTotal / eachWebPageLogNum

def logNextWAddr (logType : LogType) : ℕ := logBlockStartAddr + logType * 2

def eachTypeLogBasedAddr (logType : LogType) : ℕ := logDataBasedAddr + eachTypeLogBlockSize * logType

def eachTypeLogMaxAddr (logType : LogType) : ℕ :=
  eachTypeLogBasedAddr logType + eachTypeLogBlockSize - eachLogSize

/-- The RAM variables of `log.c`. -/
structure Log where
  nextWriteAddrVal : LogType → ℕ
  crtReadAddrVal : LogType → ℕ
  crtWebLogPageNum : ℕ
  lastWebPageLogNum : ℕ
  lastLCDPageLogNum : ℕ
  webLogPageFlag : UInt8
  LCDLogPageFlag : UInt8
  lastWebPageReadDir : ReadDir
  lastLCDPageReadDir : ReadDir
  crtWebPageLogData : List UInt8
  crtLCDPageLogData : List (List UInt8)

/-- A cleared 20-byte entry buffer. -/
def blankEntry : List UInt8 := List.replicate eachLogSize 0

/-- The three cleared rows of the LCD page. -/
def blankLcdPage : List (List UInt8) := List.replicate eachLcdPageLogNum blankEntry

namespace Log

open Eeprom

/-- The variables as the C start-up code leaves them. -/
def powerOn : Log where
  nextWriteAddrVal _ := 0
  crtReadAddrVal _ := 0
  crtWebLogPageNum := 0
  lastWebPageLogNum := 0
  lastLCDPageLogNum := 0
  webLogPageFlag := logHead
  LCDLogPageFlag := logHead
  lastWebPageReadDir := .down
  lastLCDPageReadDir := .down
  crtWebPageLogData := []
  crtLCDPageLogData := blankLcdPage

def setNextWriteAddr (s : Log) (t : LogType) (a : ℕ) : Log :=
  { s with nextWriteAddrVal := Function.update s.nextWriteAddrVal t a }

def setReadAddr (s : Log) (t : LogType) (a : ℕ) : Log :=
  { s with crtReadAddrVal := Function.update s.crtReadAddrVal t a }

/-! ### Start-up and writing -/

/-- The body of `Log_Init`'s loop: take the stored pointer, `0xffff` standing for a fresh EEPROM. -/
def logInitType (ms : Eeprom × Log) (logType : LogType) : Eeprom × Log :=
  let stored := at24cxxReadLenByte ms.1 (logNextWAddr logType) 2
  if stored = 0xffff then
    (at24cxxWriteLenByte ms.1 (logNextWAddr logType) (eachTypeLogBasedAddr logType) 2,
      ms.2.setNextWriteAddr logType (eachTypeLogBasedAddr logType))
  else (ms.1, ms.2.setNextWriteAddr logType stored)

def logInit (m : Eeprom) (s : Log) : Eeprom × Log :=
  let ms := (List.finRange 5).foldl logInitType (m, s)
  (ms.1, { ms.2 with lastWebPageReadDir := .down, lastLCDPageReadDir := .down })

/-- `nextWriteAddrVal` after one more entry. -/
def advance (logType : LogType) (a : ℕ) : ℕ :=
  let next := u32 (a + eachLogSize)
  if next > eachTypeLogMaxAddr logType then eachTypeLogBasedAddr logType else next

/-- `WriteLog`: the 19 bytes of `rtcTempStr` and the alarm flag, then the pointer. -/
def writeLog (m : Eeprom) (s : Log) (logType : LogType) (rtcTempStr : List UInt8)
    (alarmFlag : UInt8) : Eeprom × Log :=
  let logDataStr := rtcTempStr ++ [alarmFlag]
  let m := at24cxxWrite m (s.nextWriteAddrVal logType) logDataStr
  let next := advance logType (s.nextWriteAddrVal logType)
  (at24cxxWriteLenByte m (logNextWAddr logType) next 2,
    { s.setNextWriteAddr logType next with
      crtWebPageLogData := []
      lastWebPageReadDir := .down
      crtLCDPageLogData := blankLcdPage
      lastLCDPageReadDir := .down })

/-! ### Reading one entry -/

section Read

variable (m : Eeprom)

/-- A ring counts as full once the first byte of its last slot has been written. -/
def isLogFull (logType : LogType) : Bool :=
  at24cxxReadOneByte m (eachTypeLogMaxAddr logType) ≠ 0xFF

/-- More than one page of `pageLogNum` entries. -/
def isLogPageOverOne (pageLogNum : ℕ) (logType : LogType) (s : Log) : Bool :=
  if isLogFull m logType then true
  else eachTypeLogBasedAddr logType + pageLogNum * eachLogSize < s.nextWriteAddrVal logType

def isWebLogPageOverOne (logType : LogType) (s : Log) : Bool :=
  isLogPageOverOne m eachWebPageLogNum logType s

def isLCDLogPageOverOne (logType : LogType) (s : Log) : Bool :=
  isLogPageOverOne m eachLcdPageLogNum logType s

def updateLogPageFlag (logType : LogType) (logFlag : UInt8) (s : Log) : Log :=
  { s with
    webLogPageFlag :=
      if isWebLogPageOverOne m logType s then logFlag else s.webLogPageFlag ||| logFlag
    LCDLogPageFlag :=
      if isLCDLogPageOverOne m logType s then logFlag else s.LCDLogPageFlag ||| logFlag }

/-- The 20 bytes at an address, the alarm flag replaced by the terminating NUL. -/
def entryAt (a : ℕ) : List UInt8 := (at24cxxRead m a eachLogSize).set (eachLogSize - 1) 0

/-- The address `ReadNextLog` reads: one slot back, `none` at the base of a ring never full. -/
def nextReadAddr (logType : LogType) (s : Log) : Option ℕ :=
  if s.crtReadAddrVal logType = eachTypeLogBasedAddr logType then
    if isLogFull m logType then some (eachTypeLogMaxAddr logType) else none
  else some (u32 (s.crtReadAddrVal logType - eachLogSize))

/-- `ReadNextLog`: the next older entry, `LOG_END` being raised at the oldest one. -/
def readNextLog (logType : LogType) (s : Log) : Log × List UInt8 :=
  match nextReadAddr m logType s with
  | none => (updateLogPageFlag m logType logEnd s, blankEntry)
  | some a =>
    let s := s.setReadAddr logType a
    let oldest := if isLogFull m logType then s.nextWriteAddrVal logType
      else eachTypeLogBasedAddr logType
    (if a = oldest then updateLogPageFlag m logType logEnd s else s, entryAt m a)

def readFirstLog (logType : LogType) (s : Log) : Log × List UInt8 :=
  readNextLog m logType (s.setReadAddr logType (s.nextWriteAddrVal logType))

/-- The address of the newest entry as `ReadPreviousLog` computes it. -/
def newestAddr (logType : LogType) (s : Log) : ℕ := u32 (s.nextWriteAddrVal logType - eachLogSize)

/-- The address `ReadPreviousLog` reads: one slot up, `none` at the newest entry. -/
def previousReadAddr (logType : LogType) (s : Log) : Option ℕ :=
  if s.crtReadAddrVal logType = eachTypeLogMaxAddr logType then some (eachTypeLogBasedAddr logType)
  else if s.crtReadAddrVal logType = newestAddr logType s then none
  else some (u32 (s.crtReadAddrVal logType + eachLogSize))

/-- `ReadPreviousLog`: the next newer entry, `LOG_HEAD` being raised at the newest one. -/
def readPreviousLog (logType : LogType) (s : Log) : Log × List UInt8 :=
  match previousReadAddr logType s with
  | none =>
    (updateLogPageFlag m logType logHead (s.setReadAddr logType (s.nextWriteAddrVal logType)),
      blankEntry)
  | some a =>
    let s := s.setReadAddr logType a
    (if a = newestAddr logType s then updateLogPageFlag m logType logHead s else s, entryAt m a)

/-! ### Pages -/

/-- The bytes of a buffer up to its first NUL. -/
def cstr (buf : List UInt8) : List UInt8 := buf.takeWhile (· ≠ 0)

/-- One entry on the web page: its text and a `#`. -/
def webRow (logTmp : List UInt8) : List UInt8 := cstr logTmp ++ [35]

/-- The loop of every page function: at most `fuel` entries from index `i` on, until an empty one.
    The result is the state and the index reached. -/
def pageLoop (read : Log → Log × List UInt8) (put : ℕ → List UInt8 → Log → Log) :
    ℕ → ℕ → Log → Log × ℕ
  | 0, i, s => (s, i)
  | fuel + 1, i, s =>
    let r := read s
    if r.2.headD 0 = 0 then (r.1, i) else pageLoop read put fuel (i + 1) (put i r.2 r.1)

/-- `crtReadAddrVal += n * EACH_LOG_SIZE`. -/
def moveReadAddr (logType : LogType) (n : ℤ) (s : Log) : Log :=
  s.setReadAddr logType (u32 (s.crtReadAddrVal logType + n * eachLogSize))

def appendWebRow (_ : ℕ) (logTmp : List UInt8) (s : Log) : Log :=
  { s with crtWebPageLogData := s.crtWebPageLogData ++ webRow logTmp }

def prependWebRow (_ : ℕ) (logTmp : List UInt8) (s : Log) : Log :=
  { s with crtWebPageLogData := webRow logTmp ++ s.crtWebPageLogData }

def putLcdRow (i : ℕ) (logTmp : List UInt8) (s : Log) : Log :=
  { s with crtLCDPageLogData := s.crtLCDPageLogData.set i logTmp }

def putLcdRowUp (i : ℕ) (logTmp : List UInt8) (s : Log) : Log :=
  putLcdRow (eachLcdPageLogNum - 1 - i) logTmp s

def readWebFirstPageLog (logType : LogType) (s : Log) : Log :=
  let s := { s with
    crtWebLogPageNum := 1
    webLogPageFlag := logHead
    lastWebPageLogNum := 0
    crtWebPageLogData := []
    lastWebPageReadDir := .down }
  let r := readFirstLog m logType s
  if r.2.headD 0 = 0 then r.1
  else
    let p := pageLoop (readNextLog m logType) appendWebRow (eachWebPageLogNum - 1) 1
      (appendWebRow 0 r.2 r.1)
    { p.1 with lastWebPageLogNum := p.2 }

def readWebNextPageLog (logType : LogType) (s : Log) : Log :=
  let s := { s with
    crtWebLogPageNum := (s.crtWebLogPageNum + 1) % 256
    webLogPageFlag := logMiddle }
  let s := if s.lastWebPageReadDir = .up then
      { moveReadAddr logType (-(s.lastWebPageLogNum - 1)) s with lastWebPageReadDir := .down }
    else s
  let p := pageLoop (readNextLog m logType) appendWebRow eachWebPageLogNum 0
    { s with crtWebPageLogData := [] }
  { p.1 with lastWebPageLogNum := p.2 }

def readWebPreviousPageLog (logType : LogType) (s : Log) : Log :=
  let s := { s with
    crtWebLogPageNum := (s.crtWebLogPageNum + 255) % 256
    webLogPageFlag := logMiddle }
  let s := if s.lastWebPageReadDir = .down then
      { moveReadAddr logType (s.lastWebPageLogNum - 1) s with lastWebPageReadDir := .up }
    else s
  let p := pageLoop (readPreviousLog m logType) prependWebRow eachWebPageLogNum 0
    { s with crtWebPageLogData := [] }
  { p.1 with lastWebPageLogNum := p.2 }

def readLCDFirstPageLog (logType : LogType) (s : Log) : Log :=
  let s := { s with
    LCDLogPageFlag := logHead
    crtLCDPageLogData := blankLcdPage
    lastLCDPageReadDir := .down }
  let r := readFirstLog m logType s
  if r.2.headD 0 = 0 then r.1
  else
    let p := pageLoop (readNextLog m logType) putLcdRow (eachLcdPageLogNum - 1) 1
      (putLcdRow 0 r.2 r.1)
    { p.1 with lastLCDPageLogNum := p.2 }

def readLCDNextPageLog (logType : LogType) (s : Log) : Log :=
  let s := { s with LCDLogPageFlag := logMiddle }
  let s := if s.lastLCDPageReadDir = .up then
      { moveReadAddr logType (-(s.lastLCDPageLogNum - 1)) s with lastLCDPageReadDir := .down }
    else s
  let p := pageLoop (readNextLog m logType) putLcdRow eachLcdPageLogNum 0
    { s with crtLCDPageLogData := blankLcdPage }
  { p.1 with lastLCDPageLogNum := p.2 }

def readLCDPreviousPageLog (logType : LogType) (s : Log) : Log :=
  let s := { s with LCDLogPageFlag := logMiddle }
  let s := if s.lastLCDPageReadDir = .down then
      { moveReadAddr logType (s.lastLCDPageLogNum - 1) s with lastLCDPageReadDir := .up }
    else s
  let p := pageLoop (readPreviousLog m logType) putLcdRowUp eachLcdPageLogNum 0
    { s with crtLCDPageLogData := blankLcdPage }
  { p.1 with lastLCDPageLogNum := p.2 }

def getWebLogPageTotal (logType : LogType) (s : Log) : ℕ :=
  if isLogFull m logType then webPageMaxNum
  else if s.nextWriteAddrVal logType = eachTypeLogBasedAddr logType then 1
  else (u32 (s.nextWriteAddrVal logType - eachLogSize - eachTypeLogBasedAddr logType)
    / eachLogSize / eachWebPageLogNum + 1) % 256

end Read

end Log

end VectorFence
