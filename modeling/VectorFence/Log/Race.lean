import VectorFence.Lib.Interleave
import VectorFence.Log.FastClear

/-! `FastClearLog` in one task and `WriteLog` in another, on the same log. The I²C mutex is taken for
    one byte at a time and nothing is taken for a whole call, so the two calls mix. Each is written
    here as the list of its turns: a byte of the EEPROM, or what it does to `nextWriteAddrVal`
    between two bytes.

        clear  lo hi ─ next ─ byte at next ─ next ─ 0xFF … 0xFF ─ Log_Init: hi lo next lo hi
        write  next ─ e0 … e19 ─ next ─ lo hi

    (`lo`, `hi`: the stored pointer). The page buffers and the directions are left out: both calls
    only reset them. -/

namespace VectorFence

namespace Log

open Eeprom
open Interleave (Config)

/-- What the two calls share. -/
inductive Cell where
  | byte (a : ℕ)
  | next (t : LogType)
  deriving DecidableEq

/-- The contents of a cell. -/
@[reducible] def Cell.Val : Cell → Type
  | byte _ => UInt8
  | next _ => ℕ

/-- A part of a call, turn by turn. -/
abbrev Steps := Interleave.Prog Cell.Val

/-- The EEPROM and the write pointers as cells. -/
def cells (m : Eeprom) (next : LogType → ℕ) : ∀ l : Cell, l.Val
  | .byte a => m a
  | .next t => next t

/-! ### The calls, turn by turn -/

namespace Steps

/-- `AT24CXX_ReadOneByte`. -/
def at24cxxReadOneByte (readAddr : ℕ) (k : UInt8 → Steps) : Steps :=
  .read (.byte (readAddr % 0x10000)) k

/-- `AT24CXX_WriteOneByte`. -/
def at24cxxWriteOneByte (writeAddr : ℕ) (dataToWrite : UInt8) (p : Steps) : Steps :=
  .write (.byte (writeAddr % 0x10000)) dataToWrite p

/-- `AT24CXX_ReadLenByte`. -/
def at24cxxReadLenByte (readAddr len : ℕ) (k : ℕ → Steps) : Steps :=
  (List.range len).foldr (fun t k temp => at24cxxReadOneByte (readAddr + len - t - 1) fun b =>
    k ((temp <<< 8 + b.toNat) % 0x100000000)) k 0

/-- `AT24CXX_WriteLenByte`. -/
def at24cxxWriteLenByte (writeAddr dataToWrite len : ℕ) (p : Steps) : Steps :=
  (List.range len).foldr (fun t p =>
    at24cxxWriteOneByte (writeAddr + t) (UInt8.ofNat (dataToWrite >>> (8 * t) &&& 0xff)) p) p

/-- `AT24CXX_Write`. -/
def at24cxxWrite (writeAddr : ℕ) : List UInt8 → Steps → Steps
  | [], p => p
  | b :: pBuffer, p => at24cxxWriteOneByte writeAddr b (at24cxxWrite (writeAddr + 1) pBuffer p)

/-- `EraseEEProm`. -/
def eraseEEProm (eraseAddr : ℕ) : ℕ → Steps → Steps
  | 0, p => p
  | eraseLen + 1, p => at24cxxWriteOneByte eraseAddr 0xFF (eraseEEProm (eraseAddr + 1) eraseLen p)

/-- `WriteLog`. -/
def writeLog (t : LogType) (rtcTempStr : List UInt8) (alarmFlag : UInt8) : Steps :=
  .read (.next t) fun next => at24cxxWrite next (rtcTempStr ++ [alarmFlag]) <|
  .turn (.next t) (advance t) fun next => at24cxxWriteLenByte (logNextWAddr t) next 2 .done

/-- The loop of `Log_Init`. -/
def logInit : List LogType → Steps
  | [] => .done
  | t :: ts =>
    at24cxxReadLenByte (logNextWAddr t) 2 fun stored =>
    .write (.next t) (if stored = 0xffff then eachTypeLogBasedAddr t else stored) <|
    if stored = 0xffff then at24cxxWriteLenByte (logNextWAddr t) (eachTypeLogBasedAddr t) 2 (logInit ts)
    else logInit ts

/-- `FastEraseLogEEProm`. -/
def fastEraseLogEEProm : ℕ → ℕ → ℕ → Steps → Steps
  | 0, _, _, p => p
  | fuel + 1, eraseAddr, eraseLen, p =>
      if eraseLen = 0 then p
      else at24cxxWriteOneByte eraseAddr 0xFF
        (fastEraseLogEEProm fuel ((eraseAddr + eachLogSize) % 0x10000)
        ((eraseLen + 0x10000 - eachLogSize) % 0x10000) p)

/-- `FastClearLog`. -/
def fastClearLog (t : LogType) : Steps :=
  eraseEEProm (logNextWAddr t) 2 <|
  .read (.next t) fun next => at24cxxReadOneByte next fun b =>
    if b ≠ 0xFF then
      fastEraseLogEEProm 0x10000 (eachTypeLogBasedAddr t) eachTypeLogBlockSize
        (logInit (List.finRange 5))
    else .read (.next t) fun next => fastEraseLogEEProm 0x10000 (eachTypeLogBasedAddr t)
      (u32 (next - eachTypeLogBasedAddr t) % 0x10000) (logInit (List.finRange 5))

/-! ### A call on its own -/

section Exec

variable {m : Eeprom} {next : LogType → ℕ} {p : Steps}

theorem cells_next (v : ℕ) (t : LogType) :
    Function.update (cells m next) (.next t) v = cells m (Function.update next t v) := by
  funext l
  cases l with
  | byte a => rfl
  | next u =>
    by_cases hu : u = t
    · subst hu
      simp [cells]
    · simp [cells, hu]

theorem exec_readNext (t : LogType) (k : ℕ → Steps) :
    Interleave.Prog.exec (.read (.next t) k) (cells m next) = (k (next t)).exec (cells m next) :=
  Interleave.Prog.exec_read ..

theorem exec_writeNext (t : LogType) (v : ℕ) :
    Interleave.Prog.exec (.write (.next t) v p) (cells m next) =
      p.exec (cells m (Function.update next t v)) := by
  rw [Interleave.Prog.exec_write, cells_next]

theorem exec_turnNext (t : LogType) (f : ℕ → ℕ) (k : ℕ → Steps) :
    Interleave.Prog.exec (.turn (.next t) f k) (cells m next) =
      (k (f (next t))).exec (cells m (Function.update next t (f (next t)))) := by
  rw [Interleave.Prog.exec]
  exact congrArg _ (cells_next ..)

theorem exec_readOneByte (a : ℕ) (k : UInt8 → Steps) :
    (at24cxxReadOneByte a k).exec (cells m next) =
      (k (Eeprom.at24cxxReadOneByte m a)).exec (cells m next) := Interleave.Prog.exec_read ..

theorem exec_writeOneByte (a : ℕ) (v : UInt8) :
    (at24cxxWriteOneByte a v p).exec (cells m next) =
      p.exec (cells (Eeprom.at24cxxWriteOneByte m a v) next) := by
  rw [at24cxxWriteOneByte, Interleave.Prog.exec_write]
  congr 1
  funext l
  cases l with
  | next u => rfl
  | byte x =>
    by_cases hx : x = a % 0x10000
    · subst hx
      simp [cells, Eeprom.at24cxxWriteOneByte]
    · simp [cells, Eeprom.at24cxxWriteOneByte, hx]

theorem exec_readLenByte (a len : ℕ) (k : ℕ → Steps) :
    (at24cxxReadLenByte a len k).exec (cells m next) =
      (k (Eeprom.at24cxxReadLenByte m a len)).exec (cells m next) := by
  rw [at24cxxReadLenByte, Eeprom.at24cxxReadLenByte]
  generalize (0 : ℕ) = temp
  induction List.range len generalizing temp with
  | nil => rfl
  | cons t ts ih => rw [List.foldr_cons, List.foldl_cons, exec_readOneByte, ih]

theorem exec_writeLenByte (a v len : ℕ) :
    (at24cxxWriteLenByte a v len p).exec (cells m next) =
      p.exec (cells (Eeprom.at24cxxWriteLenByte m a v len) next) := by
  rw [at24cxxWriteLenByte, Eeprom.at24cxxWriteLenByte]
  induction List.range len generalizing m with
  | nil => rfl
  | cons t ts ih => rw [List.foldr_cons, List.foldl_cons, exec_writeOneByte, ih]

theorem exec_write : ∀ (buf : List UInt8) (m : Eeprom) (a : ℕ),
    (at24cxxWrite a buf p).exec (cells m next) = p.exec (cells (Eeprom.at24cxxWrite m a buf) next)
  | [], _, _ => rfl
  | b :: buf, m, a => by rw [at24cxxWrite, exec_writeOneByte, exec_write buf, Eeprom.at24cxxWrite]

theorem exec_erase : ∀ (len : ℕ) (m : Eeprom) (a : ℕ),
    (eraseEEProm a len p).exec (cells m next) = p.exec (cells (Eeprom.eraseEEProm m a len) next)
  | 0, _, _ => rfl
  | len + 1, m, a => by rw [eraseEEProm, exec_writeOneByte, exec_erase len, Eeprom.eraseEEProm]

theorem exec_fastErase : ∀ (fuel : ℕ) (m : Eeprom) (a len : ℕ),
    (fastEraseLogEEProm fuel a len p).exec (cells m next) =
      p.exec (cells (Log.fastEraseLogEEProm fuel m a len) next)
  | 0, _, _, _ => rfl
  | fuel + 1, m, a, len => by
      rw [fastEraseLogEEProm, Log.fastEraseLogEEProm]
      split_ifs
      · rfl
      · rw [exec_writeOneByte, exec_fastErase fuel]

/-- `WriteLog` without interruption is `writeLog`. -/
theorem exec_writeLog (m : Eeprom) (s : Log) (t : LogType) (rtcTempStr : List UInt8)
    (alarmFlag : UInt8) :
    (writeLog t rtcTempStr alarmFlag).exec (cells m s.nextWriteAddrVal) =
      cells (Log.writeLog m s t rtcTempStr alarmFlag).1
        (Log.writeLog m s t rtcTempStr alarmFlag).2.nextWriteAddrVal := by
  rw [writeLog, exec_readNext, exec_write, exec_turnNext, exec_writeLenByte]
  rfl

theorem exec_logInit : ∀ (ts : List LogType) (ms : Eeprom × Log),
    (logInit ts).exec (cells ms.1 ms.2.nextWriteAddrVal) =
      cells (ts.foldl logInitType ms).1 (ts.foldl logInitType ms).2.nextWriteAddrVal
  | [], _ => rfl
  | t :: ts, ms => by
      rw [logInit, exec_readLenByte, exec_writeNext, List.foldl_cons, ← exec_logInit ts, logInitType]
      split_ifs
      · rw [exec_writeLenByte]
        rfl
      · rfl

theorem exec_logInit_all (m : Eeprom) (s : Log) :
    (logInit (List.finRange 5)).exec (cells m s.nextWriteAddrVal) =
      cells (Log.logInit m s).1 (Log.logInit m s).2.nextWriteAddrVal := by
  have h := exec_logInit (List.finRange 5) (m, s)
  simp only [Log.logInit]
  exact h

/-- `FastClearLog` without interruption is `fastClearLog`. -/
theorem exec_fastClearLog (m : Eeprom) (s : Log) (t : LogType) :
    (fastClearLog t).exec (cells m s.nextWriteAddrVal) =
      cells (Log.fastClearLog m s t).1 (Log.fastClearLog m s t).2.nextWriteAddrVal := by
  have hinit (m : Eeprom) := exec_logInit_all m { s with crtWebPageLogData := [] }
  rw [fastClearLog, exec_erase, exec_readNext, exec_readOneByte]
  simp only [Log.fastClearLog, eraseLen]
  split_ifs
  · rw [exec_fastErase, hinit]
  · rw [exec_readNext, exec_fastErase, hinit]

end Exec

end Steps

/-! ### The two calls in turn -/

/-- The two calls before their first turns: `true` is the turn of `WriteLog`. -/
def race (m : Eeprom) (s : Log) (t : LogType) (rtcTempStr : List UInt8) (alarmFlag : UInt8) :
    Config Cell.Val where
  mem := cells m s.nextWriteAddrVal
  prog
    | true => Steps.writeLog t rtcTempStr alarmFlag
    | false => Steps.fastClearLog t

/-- The EEPROM and the write pointers of the cells. -/
def contents (mem : ∀ l : Cell, l.Val) : Eeprom × (LogType → ℕ) :=
  (fun a => mem (.byte a), fun u => mem (.next u))

/-- The EEPROM and the write pointers after a schedule. -/
def raced (m : Eeprom) (s : Log) (t : LogType) (rtcTempStr : List UInt8) (alarmFlag : UInt8)
    (sched : List Bool) : Eeprom × (LogType → ℕ) :=
  contents (sched.foldl Interleave.step (race m s t rtcTempStr alarmFlag)).mem

/-- The schedule takes both calls to their ends. -/
def Finished (m : Eeprom) (s : Log) (t : LogType) (rtcTempStr : List UInt8) (alarmFlag : UInt8)
    (sched : List Bool) : Prop :=
  ∀ b, ((sched.foldl Interleave.step (race m s t rtcTempStr alarmFlag)).prog b).isDone = true

instance (m : Eeprom) (s : Log) (t : LogType) (rtcTempStr : List UInt8) (alarmFlag : UInt8)
    (sched : List Bool) : Decidable (Finished m s t rtcTempStr alarmFlag sched) :=
  inferInstanceAs (Decidable (∀ _, _ = true))

/-- The two calls one after the other, `late` telling which is the second. -/
def serial (m : Eeprom) (s : Log) (t : LogType) (rtcTempStr : List UInt8) (alarmFlag : UInt8) :
    (late : Bool) → Eeprom × Log
  | true =>
    let ms := fastClearLog m s t
    writeLog ms.1 ms.2 t rtcTempStr alarmFlag
  | false =>
    let ms := writeLog m s t rtcTempStr alarmFlag
    fastClearLog ms.1 ms.2 t

/-- The entries, the stored pointer and `nextWriteAddrVal` of one log are the same. -/
def SameLog (t : LogType) (r r' : Eeprom × (LogType → ℕ)) : Prop :=
  SameRing t r.1 r'.1 ∧
    at24cxxReadLenByte r.1 (logNextWAddr t) 2 = at24cxxReadLenByte r'.1 (logNextWAddr t) 2 ∧
    r.2 t = r'.2 t

/-- The schedule leaves the log as one of the serial runs does. -/
def Serialisable (m : Eeprom) (s : Log) (t : LogType) (rtcTempStr : List UInt8) (alarmFlag : UInt8)
    (sched : List Bool) : Prop :=
  ∃ late, SameLog t (raced m s t rtcTempStr alarmFlag sched)
    ((serial m s t rtcTempStr alarmFlag late).1,
    (serial m s t rtcTempStr alarmFlag late).2.nextWriteAddrVal)

section Race

variable {m : Eeprom} {s : Log} {t : LogType} {w : ℕ} {es : List Entry} {late : Bool}

/-- Wherever a schedule has led, both calls can still be taken to their ends. -/
theorem exists_finished (m : Eeprom) (s : Log) (t : LogType) (time : List UInt8) (flag : UInt8)
    (sched : List Bool) : ∃ more, Finished m s t time flag (sched ++ more) := by
  obtain ⟨more, hmore⟩ := Interleave.exists_all_done
    (sched.foldl Interleave.step (race m s t time flag))
  refine ⟨more, fun b => ?_⟩
  rw [List.foldl_append, hmore b]
  rfl

theorem exec_race (m : Eeprom) (s : Log) (t : LogType) (time : List UInt8) (flag : UInt8)
    (late : Bool) :
    ((race m s t time flag).prog late).exec
        (((race m s t time flag).prog !late).exec (race m s t time flag).mem) =
      cells (serial m s t time flag late).1 (serial m s t time flag late).2.nextWriteAddrVal := by
  cases late with
  | false =>
    change (Steps.fastClearLog t).exec
      ((Steps.writeLog t time flag).exec (cells m s.nextWriteAddrVal)) = _
    rw [Steps.exec_writeLog, Steps.exec_fastClearLog]
    rfl
  | true =>
    change (Steps.writeLog t time flag).exec
      ((Steps.fastClearLog t).exec (cells m s.nextWriteAddrVal)) = _
    rw [Steps.exec_fastClearLog, Steps.exec_writeLog]
    rfl

/-- One after the other, the calls leave an empty log or one entry. -/
theorem WellFormed.serial (h : WellFormed m s t w es) (time : TimeStr) (flag : UInt8) (late : Bool) :
    ∃ es' : List Entry, es'.length ≤ 1 ∧ WellFormed (Log.serial m s t time.bytes flag late).1
      (Log.serial m s t time.bytes flag late).2 t es'.length es' := by
  cases late with
  | false => exact ⟨[], Nat.zero_le 1, (h.writeLog time flag).fastClearLog⟩
  | true => exact ⟨[time.entry flag], le_rfl, h.fastClearLog.writeLog time flag⟩

/-- After a serial run the pointer is at the base or the entry is in the first slot. -/
theorem Serialisable.ends (h : WellFormed m s t w es) {time : TimeStr} {flag : UInt8}
    {sched : List Bool}
    (hserial : Serialisable m s t time.bytes flag sched) :
    (raced m s t time.bytes flag sched).2 t = slotAddr t 0 ∨
      (raced m s t time.bytes flag sched).1 (slotAddr t 0) = (time.entry flag).bytes.headD 0 := by
  obtain ⟨late, hring, -, hnext⟩ := hserial
  simp only [Log.serial] at hring hnext
  cases late with
  | false => exact Or.inl (hnext.trans (h.writeLog time flag).fastClearLog.next)
  | true =>
    have hslot := (h.fastClearLog.writeLog time flag).head (a := 0) Nat.one_pos
    exact Or.inr ((hring.slot (k := 0) (by norm_num)).symm.trans hslot)

/-- On a new device: the clear has erased the stored pointer, an entry is written, the clear goes
    on. The entry is gone, the pointer is behind it. -/
theorem not_serialisable : ¬∀ (m : Eeprom) (s : Log) (t : LogType) (time : TimeStr) (flag : UInt8)
    (sched : List Bool), (∀ u, ∃ w es, WellFormed m s u w es) → Finished m s t time.bytes flag sched →
      Serialisable m s t time.bytes flag sched := by
  intro h
  have hwf (u : LogType) : WellFormed (logInit newEeprom powerOn).1 (logInit newEeprom powerOn).2 u 0
    [] :=
    (erased_newEeprom u).logInit powerOn
  have hends := (h _ _ .BOPN .sample 1
    (List.replicate 2 false ++ List.replicate 24 true ++ List.replicate 23 false)
    (fun u => ⟨0, [], hwf u⟩) (by decide +kernel)).ends (hwf .BOPN)
  revert hends
  decide +kernel

end Race

end Log

end VectorFence
