import VectorFence.Iic.Transfer

/-! The clock PCF8563 and its driver. Seven of its registers hold the time in BCD, with flags and
    unused bits above the digits:

        register    2        3        4      5     6         7       8
                    VL sec   · min    · h    · d   weekday   C · m   year

        "2018-03-31 16:27:00" ──PCF8563_Set_Str──▶ IICWrite of registers 0 … 15
        IICRead of registers 0 … 10 ──PCF8563_Get_Str──▶ "2018-03-31 16:27:00"

    A string is taken apart by `strtok`, which skips the separators in front of a token. -/

namespace VectorFence

namespace CStr

/-! ### Tokens -/

/-- `strtok`: the token, and what is behind the separator that ends it. -/
def strtok (delim : UInt8) (s : CStr) : Option (CStr × CStr) :=
  match s.dropWhile (· = delim) with
  | [] => none
  | c :: s => some ((c :: s).takeWhile (· ≠ delim), ((c :: s).dropWhile (· ≠ delim)).tail)

/-- The tokens of at most `n` calls. -/
def tokens (delim : UInt8) : ℕ → CStr → List CStr
  | 0, _ => []
  | n + 1, s =>
    match strtok delim s with
    | none => []
    | some (p, rest) => p :: tokens delim n rest

/-- The tokens `splitStrToInt` converts; a string has no more of them than characters. -/
def splitTokens (delim : UInt8) (fromStr : CStr) : List CStr := tokens delim fromStr.length fromStr

/-- `"%02x"`. -/
def lowHex2 (b : UInt8) : CStr :=
  let digit (d : ℕ) : UInt8 := UInt8.ofNat (if d < 10 then 48 + d else 87 + d)
  [digit (b.toNat / 16), digit (b.toNat % 16)]

end CStr

/-- `PCF8536_RTC_TD`. -/
structure RtcTd where
  tmYear : UInt8
  tmMon : UInt8
  tmMday : UInt8
  tmHour : UInt8
  tmMin : UInt8
  tmSec : UInt8
  deriving DecidableEq, Repr

namespace RtcTd

open CStr

/-- The assignments after `splitStrToInt` of a date. -/
def setDate (tdTmp : ℕ → ℤ) (rtc : RtcTd) : RtcTd :=
  { rtc with
    tmYear := UInt8.ofInt (tdTmp 0 - 2000)
    tmMon := UInt8.ofInt (tdTmp 1)
    tmMday := UInt8.ofInt (tdTmp 2) }

/-- … and of a time. -/
def setTime (tdTmp : ℕ → ℤ) (rtc : RtcTd) : RtcTd :=
  { rtc with
    tmHour := UInt8.ofInt (tdTmp 0)
    tmMin := UInt8.ofInt (tdTmp 1)
    tmSec := UInt8.ofInt (tdTmp 2) }

/-! ### Writing the clock -/

def hex2BCD (hexChar : UInt8) : UInt8 :=
  let hexChar := if hexChar > 99 then 99 else hexChar
  ((hexChar / 10) <<< 4) + (hexChar - hexChar / 10 * 10)

/-- January and February count as months of the year before. -/
def adjust (rtc : RtcTd) : RtcTd :=
  if rtc.tmMon = 1 ∨ rtc.tmMon = 2 then
    { rtc with tmMon := rtc.tmMon + 12, tmYear := rtc.tmYear - 1 } else rtc

/-- `init_time[6]`, from the adjusted date. -/
def weekday (rtc : RtcTd) : UInt8 :=
  let (y, m, d) := (rtc.tmYear.toNat, rtc.tmMon.toNat, rtc.tmMday.toNat)
  let w := UInt8.ofNat ((d + 2 * m + 3 * (m + 1) / 5 + y + y / 4 - y / 100 + y / 400) % 7)
  if w = 6 then 0 else w + 1

/-- `init_time`. -/
def initTime (rtc : RtcTd) : List UInt8 :=
  [0x00, 0x00, hex2BCD rtc.tmSec, hex2BCD rtc.tmMin, hex2BCD rtc.tmHour, hex2BCD rtc.tmMday,
    rtc.adjust.weekday,
    hex2BCD rtc.tmMon, hex2BCD rtc.tmYear, 0x80, 0x80, 0x80, 0x80, 0x81, 0x00, 0x00]

/-- The parts of `PCF8563_Set_Str`; `none` where a part has not three numbers for `td_tmp`. -/
def ofStr (rtcSetStr : CStr) : Option RtcTd :=
  let date := splitTokens 45 (rtcSetStr.take 10)
  let time := splitTokens 58 ((rtcSetStr.drop 11).take 8)
  if date.length = 3 ∧ time.length = 3 then
    some (setTime (fun i => atoi (time.getD i []))
      (setDate (fun i => atoi (date.getD i [])) ⟨0, 0, 0, 0, 0, 0⟩))
  else none

/-! ### Reading the clock -/

/-- The bits of a register that hold the time. -/
def timeBits : ℕ → UInt8
  | 2 | 3 => 0x7f
  | 4 | 5 => 0x3f
  | 7 => 0x1f
  | 8 => 0xff
  | _ => 0

/-- `read_time[k]` without the other bits. -/
def masked (readTime : List UInt8) (k : ℕ) : UInt8 := readTime.getD k 0 &&& timeBits k

/-- A BCD value of `PCF8563_Get`. -/
def ofBCD (b : UInt8) : UInt8 := (b >>> 4) * 10 + (b &&& 0x0f)

def ofReadTime (readTime : List UInt8) : RtcTd where
  tmYear := ofBCD (masked readTime 8)
  tmMon := ofBCD (masked readTime 7)
  tmMday := ofBCD (masked readTime 5)
  tmHour := ofBCD (masked readTime 4)
  tmMin := ofBCD (masked readTime 3)
  tmSec := ofBCD (masked readTime 2)

/-- `"20%02x-%02x-%02x %02x:%02x:%02x"`. -/
def readTimeStr (readTime : List UInt8) : CStr :=
  lit "20" ++ lowHex2 (masked readTime 8) ++ lit "-" ++ lowHex2 (masked readTime 7) ++ lit "-" ++
    lowHex2 (masked readTime 5) ++ lit " " ++ lowHex2 (masked readTime 4) ++ lit ":" ++
    lowHex2 (masked readTime 3) ++ lit ":" ++ lowHex2 (masked readTime 2)

end RtcTd

namespace Iic

open RtcTd

def pcf8563SlaveAddr : UInt8 := 0xa2

/-- `ERROR` of `iicrw.h`. -/
def error : UInt8 := 0

variable (dev : IicSlaves)

/-- `PCF8563_Set`, with what it leaves in the structure. -/
def pcf8563Set (rtc : RtcTd) : Iic RtcTd := do
  let _ ← iicWrite dev pcf8563SlaveAddr 0x00 rtc.initTime
  return rtc.adjust

/-- `PCF8563_Set_Str`. -/
def pcf8563SetStr (rtcSetStr : CStr) : Iic Unit :=
  match RtcTd.ofStr rtcSetStr with
  | some rtc => do let _ ← pcf8563Set dev rtc
  | none => return

/-- The beginning of `PCF8563_Get` and `PCF8563_Get_Str`: `read_time`, which held `stack` before the
    call, or `none` on the way out after an `ERROR`. -/
def readTime (stack : List UInt8) : Iic (Option (List UInt8)) := do
  let (ret, rBuf) ← iicRead dev pcf8563SlaveAddr 0x00 11
  if ret = error then return none else return some (rBuf ++ stack.drop rBuf.length)

def pcf8563Get (stack : List UInt8) (rtc : RtcTd) : Iic RtcTd := do
  match ← readTime dev stack with
  | some readTime => return ofReadTime readTime
  | none => return rtc

def pcf8563GetStr (stack : List UInt8) (rtcTDStr : CStr) : Iic CStr := do
  match ← readTime dev stack with
  | some readTime => return readTimeStr readTime
  | none => return rtcTDStr

/-! ### What a reading finds -/

variable {dev} {b : IicBus}

/-- The bytes a read brings in after `t`. -/
def registers (dev : IicSlaves) (t : List IicEvent) : List UInt8 :=
  (List.range 11).map fun k => dev.byte (readTrace pcf8563SlaveAddr 0x00 t k)

theorem run_readTime_acked (hfree : b.held = false) (h : Acked dev pcf8563SlaveAddr 0x00 b.trace)
    (stack : List UInt8) : ∃ b', (readTime dev stack).run b =
      some (some (registers dev b.trace ++ stack.drop 11), b') := by
  obtain ⟨b', hrun, -⟩ := run_iicRead_acked hfree h 11 (by decide)
  refine ⟨b', ?_⟩
  rw [readTime, run_bind_of hrun]
  have hlen : (registers dev b.trace).length = 11 := by simp [registers]
  change (if (11 : UInt8) = error then pure none else
    pure (some (registers dev b.trace ++ stack.drop (registers dev b.trace).length)) : Iic _).run b' = _
  rw [if_neg (by decide), hlen]
  rfl

/-- The value of `IICRead` without an acknowledge is not `ERROR`, and nothing was stored. -/
theorem run_readTime_nacked (hfree : b.held = false) (h : ¬Acked dev pcf8563SlaveAddr 0x00 b.trace)
    (stack : List UInt8) : ∃ b', (readTime dev stack).run b = some (some stack, b') := by
  obtain ⟨b', hrun⟩ := run_iicRead_nacked hfree h 11
  refine ⟨b', ?_⟩
  rw [readTime, run_bind_of hrun]
  change (if (-1 : UInt8) = error then pure none else pure (some stack) : Iic _).run b' = _
  rw [if_neg (by decide)]
  rfl

end Iic

example : (RtcTd.ofStr (CStr.lit "2018-03-31 16:27:00")).map RtcTd.initTime = some
    [0x00, 0x00, 0x00, 0x27, 0x16, 0x31, 0x06, 0x03, 0x18, 0x80, 0x80, 0x80, 0x80, 0x81, 0x00,
    0x00] := by decide

end VectorFence
