import VectorFence.Lib.Layout
import VectorFence.Lwip
import VectorFence.Settings
import VectorFence.Shutdown

/-! The areas of the EEPROM, one for each group of parameters, with the functions of `24cxx.c` and
    `log.c` that store and read it.

        0x00   0x1E     0x20 0x2C  0x38 0x44  0x50       0x54     0x56      0x5A   0x5C  0x60
        net    config   zero A B   base A B   threshold  control  switches  range  time  zones

        0xE0 + 2·t         0x100 + 6000·t + 20·k
        pointer of log t   entry k of log t

    The zero and base values are copied from the arrays in memory, low byte first, and so are the write
    pointers; the other 16-bit values are stored high byte first. -/

namespace VectorFence

inductive Area where
  | net
  | config
  | zero (f : Zone)
  | base (f : Zone)
  | threshold
  | control
  | switches
  | range
  | time
  | zones
  | pointer (t : LogType)
  | entry (t : LogType) (k : Fin 300)
  deriving DecidableEq, Repr

namespace Eeprom

open FieldPara

variable (m : Eeprom)

def writeConfigCodeToEEProm (configCode : UInt8) : Eeprom :=
  at24cxxWriteOneByte m configCodeAddr configCode

def readConfigCodeToEEProm : UInt8 := at24cxxReadOneByte m configCodeAddr

def writeAdcZeroToEEProm (fieldIndex : Zone) (zeroVal : Line → Int16) : Eeprom :=
  at24cxxWrite m (aAdcZeroAddr + 12 * fieldIndex) (Dev.lineBytes zeroVal)

def writeAdcBaseToEEProm (fieldIndex : Zone) (baseVal : Line → Int16) : Eeprom :=
  at24cxxWrite m (aAdcBaseAddr + 12 * fieldIndex) (Dev.lineBytes baseVal)

/-- The six `s16` at an address. -/
def lineVals (addr : ℕ) (i : Line) : Int16 :=
  (bytesU16 (at24cxxReadOneByte m (addr + 2 * i + 1)) (at24cxxReadOneByte m (addr + 2 * i))).toInt16

def readAdcZeroFromEEProm (fieldIndex : Zone) : Line → Int16 :=
  lineVals m (aAdcZeroAddr + 12 * fieldIndex)

def readAdcBaseFromEEProm (fieldIndex : Zone) : Line → Int16 :=
  lineVals m (aAdcBaseAddr + 12 * fieldIndex)

/-- The two thresholds, the upper one first. -/
def writeAlmThrdToEEProm (thresholds : UInt16 × UInt16) : Eeprom :=
  at24cxxWrite m almThrdAddr (u16Bytes thresholds.1 ++ u16Bytes thresholds.2)

def readAlmThrdFromEEProm : UInt16 × UInt16 := (readU16 m almThrdAddr, readU16 m (almThrdAddr + 2))

/-- The control flags in the order of their bits, from bit 2 down. -/
def writeControlParaToEEProm (flags : Switch × Switch × Switch) : Eeprom :=
  at24cxxWrite m controlParaAddr [Dev.controlByte flags.1 flags.2.2 flags.2.1]

def readControlParaFromEEProm : Switch × Switch × Switch :=
  let controlPara := (at24cxxReadOneByte m controlParaAddr).toBitVec
  (.ofBit (controlPara.getLsbD 2), .ofBit (controlPara.getLsbD 1), .ofBit (controlPara.getLsbD 0))

def writeSWValToEEProm (swType : Fin 2 → Int8) : Eeprom :=
  at24cxxWrite m swValAddr [(swType 0).toUInt8, (swType 1).toUInt8]

def readSWValToEEProm : Fin 2 → Int8 :=
  ![(at24cxxReadOneByte m swValAddr).toInt8, (at24cxxReadOneByte m (swValAddr + 1)).toInt8]

def writeTensionMaxRangeToEEProm (tensionMaxRange : UInt16) : Eeprom :=
  at24cxxWrite m tensionMaxRangeAddr (u16Bytes tensionMaxRange)

def readTensionMaxRangeFromEEProm : UInt16 := readU16 m tensionMaxRangeAddr

def writeBaseAutoCalibrateTimeToEEProm (baseAutoCalibrateTime : UInt16) : Eeprom :=
  at24cxxWrite m baseAutoCalibrateTimeAddr (u16Bytes baseAutoCalibrateTime)

def readBaseAutoCalibrateTimeFromEEProm : UInt16 := readU16 m baseAutoCalibrateTimeAddr

end Eeprom

namespace Area

open Eeprom FieldPara

/-- What the variables of a group hold. -/
abbrev Value : Area → Type
  | net => LwipDev
  | config => UInt8
  | zero _ | base _ => Line → Int16
  | threshold => UInt16 × UInt16
  | control => Switch × Switch × Switch
  | switches => Fin 2 → Int8
  | range | time => UInt16
  | zones => FieldPara
  | pointer _ => UInt16
  | entry _ _ => { logDataStr : List UInt8 // logDataStr.length = eachLogSize }

/-- The `Write…` function of a group. -/
def write : (g : Area) → g.Value → Eeprom → Eeprom
  | net, v, m => LwipDev.writeNetParasToEEProm m v
  | config, v, m => writeConfigCodeToEEProm m v
  | zero f, v, m => writeAdcZeroToEEProm m f v
  | base f, v, m => writeAdcBaseToEEProm m f v
  | threshold, v, m => writeAlmThrdToEEProm m v
  | control, v, m => writeControlParaToEEProm m v
  | switches, v, m => writeSWValToEEProm m v
  | range, v, m => writeTensionMaxRangeToEEProm m v
  | time, v, m => writeBaseAutoCalibrateTimeToEEProm m v
  | zones, v, m => writeFieldParaToEEProm m v
  | pointer t, v, m => at24cxxWriteLenByte m (logNextWAddr t) v.toNat 2
  | entry t k, v, m => at24cxxWrite m (Log.slotAddr t k) v.1

/-- The `Read…` function of a group. -/
def read : (g : Area) → Eeprom → g.Value
  | net, m => LwipDev.readNetParasFromEEProm m
  | config, m => readConfigCodeToEEProm m
  | zero f, m => readAdcZeroFromEEProm m f
  | base f, m => readAdcBaseFromEEProm m f
  | threshold, m => readAlmThrdFromEEProm m
  | control, m => readControlParaFromEEProm m
  | switches, m => readSWValToEEProm m
  | range, m => readTensionMaxRangeFromEEProm m
  | time, m => readBaseAutoCalibrateTimeFromEEProm m
  | zones, m => readFieldParaFromEEProm m
  | pointer t, m => UInt16.ofNat (at24cxxReadLenByte m (logNextWAddr t) 2)
  | entry t k, m => ⟨at24cxxRead m (Log.slotAddr t k) eachLogSize, length_read ..⟩

/-! ### Who owns an address -/

def start : Area → ℕ
  | net => netParaAddr
  | config => configCodeAddr
  | zero f => aAdcZeroAddr + 12 * f
  | base f => aAdcBaseAddr + 12 * f
  | threshold => almThrdAddr
  | control => controlParaAddr
  | switches => swValAddr
  | range => tensionMaxRangeAddr
  | time => baseAutoCalibrateTimeAddr
  | zones => fieldParaAddr
  | pointer t => logNextWAddr t
  | entry t k => Log.slotAddr t k

def len : Area → ℕ
  | net => 18
  | config | control => 1
  | zero _ | base _ => 12
  | threshold => 4
  | switches | range | time | pointer _ => 2
  | zones => 16
  | entry _ _ => eachLogSize

/-- The group an address belongs to. -/
def owner (x : ℕ) : Option Area :=
  if x < 0x12 then some net
  else if x = 0x1E then some config
  else if 0x20 ≤ x ∧ x < 0x38 then some (zero (Fin.ofNat 2 ((x - 0x20) / 12)))
  else if 0x38 ≤ x ∧ x < 0x50 then some (base (Fin.ofNat 2 ((x - 0x38) / 12)))
  else if 0x50 ≤ x ∧ x < 0x54 then some threshold
  else if x = 0x54 then some control
  else if 0x56 ≤ x ∧ x < 0x58 then some switches
  else if 0x5A ≤ x ∧ x < 0x5C then some range
  else if 0x5C ≤ x ∧ x < 0x5E then some time
  else if 0x60 ≤ x ∧ x < 0x70 then some zones
  else if 0xE0 ≤ x ∧ x < 0xEA then some (pointer (Fin.ofNat 5 ((x - 0xE0) / 2)))
  else if 0x100 ≤ x ∧ x < 0x7630 then
    some (entry (Fin.ofNat 5 ((x - 0x100) / 6000)) (Fin.ofNat 300 ((x - 0x100) % 6000 / 20)))
  else none

theorem ofNat_eq {n : ℕ} [NeZero n] {a : ℕ} {i : Fin n} (h : a = i) : Fin.ofNat n a = i := by
  subst h
  exact Fin.ext (Nat.mod_eq_of_lt i.isLt)

theorem owner_value {f : Zone} {x : ℕ} :
    (0x20 + 12 * f ≤ x → x < 0x20 + 12 * f + 12 → owner x = some (zero f)) ∧
      (0x38 + 12 * f ≤ x → x < 0x38 + 12 * f + 12 → owner x = some (base f)) := by
  have hf := f.isLt
  constructor
  · intro h0 h1
    rw [owner, if_neg (by omega), if_neg (by omega), if_pos (by omega), ofNat_eq (i := f) (by omega)]
  · intro h0 h1
    rw [owner, if_neg (by omega), if_neg (by omega), if_neg (by omega), if_pos (by omega),
      ofNat_eq (i := f) (by omega)]

theorem owner_log {x : ℕ} (h : 0xE0 ≤ x) : owner x =
    if x < 0xEA then some (pointer (Fin.ofNat 5 ((x - 0xE0) / 2)))
    else if 0x100 ≤ x ∧ x < 0x7630 then
      some (entry (Fin.ofNat 5 ((x - 0x100) / 6000)) (Fin.ofNat 300 ((x - 0x100) % 6000 / 20)))
    else none := by
  simp only [owner, if_neg (show ¬x < 0x12 by omega), if_neg (show ¬x = 0x1E by omega),
    if_neg (show ¬(0x20 ≤ x ∧ x < 0x38) by omega), if_neg (show ¬(0x38 ≤ x ∧ x < 0x50) by omega),
    if_neg (show ¬(0x50 ≤ x ∧ x < 0x54) by omega), if_neg (show ¬x = 0x54 by omega),
    if_neg (show ¬(0x56 ≤ x ∧ x < 0x58) by omega), if_neg (show ¬(0x5A ≤ x ∧ x < 0x5C) by omega),
    if_neg (show ¬(0x5C ≤ x ∧ x < 0x5E) by omega), if_neg (show ¬(0x60 ≤ x ∧ x < 0x70) by omega), h,
    true_and]

/-- An address within a group belongs to it. -/
theorem owner_eq {g : Area} {x : ℕ} (h0 : g.start ≤ x) (h1 : x < g.start + g.len) :
    owner x = some g := by
  cases g with
  | net =>
    have hx : x < 0x12 := h1
    rw [owner, if_pos hx]
  | config =>
    obtain rfl : x = 0x1E := le_antisymm (Nat.le_of_lt_succ h1) h0
    rfl
  | zero f => exact owner_value.1 h0 h1
  | base f => exact owner_value.2 h0 h1
  | control =>
    obtain rfl : x = 0x54 := le_antisymm (Nat.le_of_lt_succ h1) h0
    rfl
  | threshold | switches | range | time | zones =>
    have hx := Finset.mem_Ico.mpr ⟨h0, h1⟩
    revert hx
    clear h0 h1
    revert x
    simp only [start, len]
    decide
  | pointer t =>
    have ht := t.isLt
    simp only [start, len, Log.logNextWAddr_eq] at h0 h1
    rw [owner_log (by omega), if_pos (by omega), ofNat_eq (i := t) (by omega)]
  | entry t k =>
    have ht := t.isLt
    have hk := k.isLt
    simp only [start, len, Log.slotAddr_eq, eachLogSize] at h0 h1
    rw [owner_log (by omega), if_neg (by omega), if_pos (by omega), ofNat_eq (i := t) (by omega),
      ofNat_eq (i := k) (by omega)]

theorem outside {g : Area} {x : ℕ} (h : owner x ≠ some g) : x < g.start ∨ g.start + g.len ≤ x := by
  by_contra hin
  exact h (owner_eq (by omega) (by omega))

theorem start_add_len (g : Area) : g.start + g.len ≤ 0x8000 := by
  cases g with
  | zero f | base f =>
    have hf := f.isLt
    simp only [start, len, aAdcZeroAddr, aAdcBaseAddr]
    omega
  | pointer t =>
    simp only [start, len, Log.logNextWAddr_eq]
    omega
  | entry t k =>
    simp only [start, len, Log.slotAddr_eq, eachLogSize]
    omega
  | _ => decide

/-! ### The functions of a group -/

section Functions

variable {g : Area} {m m' : Eeprom} {x : ℕ}

theorem write_outside {buf : List UInt8} (hg : owner x ≠ some g) (hlen : buf.length = g.len) :
    at24cxxWrite m g.start buf x = m x := by
  have hend := g.start_add_len
  exact write_frame m (by omega) (hlen ▸ outside hg)

/-- A `Write…` function changes what the group owns only. -/
theorem write_owner (hg : owner x ≠ some g) (v : g.Value) : g.write v m x = m x := by
  cases g with
  | net =>
    have hx : 18 ≤ x := (outside hg).resolve_left (Nat.not_lt_zero x)
    exact LwipDev.writeNetParas_frame m v hx
  | config => exact (writeOneByte_apply m (by decide) v x).trans (if_neg fun h => hg (by rw [h]; rfl))
  | zero f | base f => exact write_outside hg (by simp [Dev.lineBytes, len])
  | threshold | control | switches | range | time => exact write_outside hg rfl
  | zones =>
    have hx : x < fieldParaAddr ∨ fieldParaAddr + 16 ≤ x := outside hg
    refine (write_frame _ ?_ ?_).trans (write_frame m ?_ ?_)
    all_goals
      rw [length_zoneBytes]
      simp only [fieldParaAddr] at hx ⊢
      omega
  | pointer t =>
    have hx : x < logNextWAddr t ∨ logNextWAddr t + 2 ≤ x := outside hg
    have ht := Log.logNextWAddr_eq t
    exact Log.writeLenByte_two_apply m (by omega) v.toNat (by omega) (by omega)
  | entry t k => exact write_outside hg v.2

theorem of_ite {c : Prop} [Decidable c] {a : Area} {o : Option Area}
    (h : (if c then some a else o) = some g) : c ∧ a = g ∨ o = some g := by
  split_ifs at h with hc
  · exact Or.inl ⟨hc, Option.some.inj h⟩
  · exact Or.inr h

/-- The owned addresses of an area lie within it. -/
theorem owner_inside (h : owner x = some g) : g.start ≤ x ∧ x < g.start + g.len := by
  rw [owner] at h
  rcases of_ite h with ⟨hx, rfl⟩ | h
  · exact ⟨Nat.zero_le x, hx⟩
  rcases of_ite h with ⟨rfl, rfl⟩ | h
  · exact ⟨le_rfl, Nat.lt_succ_self _⟩
  rcases of_ite h with ⟨hx, rfl⟩ | h
  · simp only [start, len, aAdcZeroAddr, Fin.ofNat]
    omega
  rcases of_ite h with ⟨hx, rfl⟩ | h
  · simp only [start, len, aAdcBaseAddr, Fin.ofNat]
    omega
  rcases of_ite h with ⟨hx, rfl⟩ | h
  · exact hx
  rcases of_ite h with ⟨rfl, rfl⟩ | h
  · exact ⟨le_rfl, Nat.lt_succ_self _⟩
  rcases of_ite h with ⟨hx, rfl⟩ | h
  · exact hx
  rcases of_ite h with ⟨hx, rfl⟩ | h
  · exact hx
  rcases of_ite h with ⟨hx, rfl⟩ | h
  · exact hx
  rcases of_ite h with ⟨hx, rfl⟩ | h
  · exact hx
  rcases of_ite h with ⟨hx, rfl⟩ | h
  · simp only [start, len, Log.logNextWAddr_eq, Fin.ofNat]
    omega
  rcases of_ite h with ⟨hx, rfl⟩ | h
  · simp only [start, len, Log.slotAddr_eq, eachLogSize, Fin.ofNat]
    omega
  · simp at h

theorem write_inside {buf : List UInt8} (hg : owner x = some g) (hlen : buf.length = g.len) :
    at24cxxWrite m g.start buf x = buf.getD (x - g.start) 0 := by
  have hend := g.start_add_len
  rw [write_apply _ _ _ (by omega), hlen, if_pos (owner_inside hg)]

/-- A `Write…` function replaces all that the group owns. -/
theorem write_owned (hg : owner x = some g) (v : g.Value) : g.write v m' x = g.write v m x := by
  have hbuf {buf : List UInt8} (hlen : buf.length = g.len) :
      at24cxxWrite m' g.start buf x = at24cxxWrite m g.start buf x :=
    (write_inside hg hlen).trans (write_inside hg hlen).symm
  obtain ⟨hx0, hx1⟩ := owner_inside hg
  cases g with
  | net =>
    simp only [len, start, netParaAddr] at hx1
    simp only [write]
    rw [LwipDev.writeNetParas_apply, LwipDev.writeNetParas_apply]
    split_ifs
    · rfl
    · rfl
    · rfl
    · rfl
    · omega
  | config => exact @hbuf [v] rfl
  | zero f | base f => exact hbuf (by simp [Dev.lineBytes, len])
  | threshold | control | switches | range | time => exact hbuf rfl
  | zones =>
    simp only [write, writeFieldParaToEEProm]
    simp only [start, len, fieldParaAddr] at hx0 hx1
    have hlen (i : Zone) := length_zoneBytes v i
    simp only [fieldParaAddr]
    rw [write_apply _ _ _ (by rw [hlen]; omega), write_apply _ _ _ (by rw [hlen]; omega),
      write_apply _ _ _ (by rw [hlen]; omega), write_apply _ _ _ (by rw [hlen]; omega), hlen, hlen]
    split_ifs
    · rfl
    · rfl
    · omega
  | pointer t =>
    have ht := Log.logNextWAddr_eq t
    simp only [start, len] at hx0 hx1
    simp only [write]
    rw [writeLenByte_two, writeLenByte_two, writeOneByte_apply _ (by omega),
      writeOneByte_apply _ (by omega),
      writeOneByte_apply _ (by omega), writeOneByte_apply _ (by omega)]
    split_ifs
    · rfl
    · rfl
    · omega
  | entry t k => exact hbuf v.2

theorem readOneByte_congr (h : ∀ x, owner x = some g → m' x = m x) {i : ℕ} (hi : i < g.len) :
    at24cxxReadOneByte m' (g.start + i) = at24cxxReadOneByte m (g.start + i) := by
  have hend := g.start_add_len
  rw [readOneByte_eq _ (by omega), readOneByte_eq _ (by omega), h _ (owner_eq (by omega) (by omega))]

theorem readU16_congr (h : ∀ x, owner x = some g → m' x = m x) {i : ℕ} (hi : i + 1 < g.len) :
    readU16 m' (g.start + i) = readU16 m (g.start + i) := by
  rw [readU16, readU16, readOneByte_congr h (by omega), Nat.add_assoc, readOneByte_congr h hi]

theorem lineVals_congr (h : ∀ x, owner x = some g → m' x = m x) (hlen : 12 ≤ g.len) :
    lineVals m' g.start = lineVals m g.start := by
  funext i
  have hi := i.isLt
  rw [lineVals, lineVals, Nat.add_assoc, readOneByte_congr h (by omega), readOneByte_congr h (by omega)]

/-- A `Read…` function looks at what the group owns only. -/
theorem read_owner (h : ∀ x, owner x = some g → m' x = m x) : g.read m' = g.read m := by
  cases g with
  | net =>
    refine LwipDev.ext (funext fun i => ?_) (funext fun i => ?_) (funext fun i => ?_)
      (funext fun i => ?_)
    all_goals
      have hi := i.isLt
      simp only [read, LwipDev.readNetParasFromEEProm]
    · exact readOneByte_congr h (i := i) (by simp only [len]; omega)
    · rw [Nat.add_assoc]
      exact readOneByte_congr h (i := 6 + i) (by simp only [len]; omega)
    · rw [Nat.add_assoc]
      exact readOneByte_congr h (i := 10 + i) (by simp only [len]; omega)
    · rw [Nat.add_assoc]
      exact readOneByte_congr h (i := 14 + i) (by simp only [len]; omega)
  | config => exact readOneByte_congr h (i := 0) (by decide)
  | zero f =>
    simp only [read, readAdcZeroFromEEProm]
    exact lineVals_congr (g := zero f) h (Nat.le_refl 12)
  | base f =>
    simp only [read, readAdcBaseFromEEProm]
    exact lineVals_congr (g := base f) h (Nat.le_refl 12)
  | threshold =>
      exact Prod.ext (readU16_congr h (i := 0) (by decide)) (readU16_congr h (i := 2) (by decide))
  | control =>
    have hbyte : at24cxxReadOneByte m' controlParaAddr = at24cxxReadOneByte m controlParaAddr :=
      readOneByte_congr h (i := 0) (by decide)
    simp only [read, readControlParaFromEEProm, hbyte]
  | switches =>
    have h0 : at24cxxReadOneByte m' swValAddr = at24cxxReadOneByte m swValAddr :=
      readOneByte_congr h (i := 0) (by decide)
    have h1 : at24cxxReadOneByte m' (swValAddr + 1) = at24cxxReadOneByte m (swValAddr + 1) :=
      readOneByte_congr h (i := 1) (by decide)
    simp only [read, readSWValToEEProm, h0, h1]
  | range | time => exact readU16_congr h (i := 0) (by decide)
  | zones =>
    have hbyte (i : Zone) {j : ℕ} (hj : j < 8) :
        at24cxxReadOneByte m' (fieldParaAddr + 8 * i + j) =
        at24cxxReadOneByte m (fieldParaAddr + 8 * i + j) := by
      have hi := i.isLt
      rw [Nat.add_assoc]
      exact readOneByte_congr h (by simp only [len]; omega)
    have hword (i : Zone) {j : ℕ} (hj : j + 1 < 8) :
        readU16 m' (fieldParaAddr + 8 * i + j) = readU16 m (fieldParaAddr + 8 * i + j) := by
      have hi := i.isLt
      rw [Nat.add_assoc]
      exact readU16_congr h (by simp only [len]; omega)
    refine FieldPara.ext (funext fun i => ?_) (funext fun i => ?_) (funext fun i => ?_)
      (funext fun i => funext fun k => ?_)
    · exact hbyte i (j := 0) (by norm_num)
    · exact hword i (j := 1) (by norm_num)
    · exact hbyte i (j := 3) (by norm_num)
    · rcases zone_cases k with rfl | rfl
      · exact hword i (j := 4) (by norm_num)
      · exact hword i (j := 6) (by norm_num)
  | pointer t =>
    have h0 : at24cxxReadOneByte m' (logNextWAddr t) = at24cxxReadOneByte m (logNextWAddr t) :=
      readOneByte_congr h (i := 0) (by simp only [len]; norm_num)
    have h1 : at24cxxReadOneByte m' (logNextWAddr t + 1) = at24cxxReadOneByte m (logNextWAddr t + 1) :=
      readOneByte_congr h (i := 1) (by simp only [len]; norm_num)
    simp only [read, readLenByte_two, h0, h1]
  | entry t k =>
    have hend := (entry t k).start_add_len
    simp only [start, len] at hend
    exact Subtype.ext (read_congr _ _ (by omega) fun x h0 h1 => h x (owner_eq h0 h1))

end Functions

/-! ### Reading back -/

theorem length_lineBytes (v : Line → Int16) : (Dev.lineBytes v).length = 12 := by simp [Dev.lineBytes]

theorem getD_lineBytes (v : Line → Int16) (i : Line) :
    (Dev.lineBytes v).getD (2 * i) 0 = (v i).toUInt16.toUInt8 ∧
      (Dev.lineBytes v).getD (2 * i + 1) 0 = ((v i).toUInt16 >>> 8).toUInt8 := by
  simp only [Dev.lineBytes, List.finRange, List.ofFn]
  fin_cases i <;> exact ⟨rfl, rfl⟩

theorem lineVals_write (m : Eeprom) {addr : ℕ} (ha : addr + 12 ≤ 0x10000) (v : Line → Int16) :
    lineVals (at24cxxWrite m addr (Dev.lineBytes v)) addr = v := by
  funext i
  have hi := i.isLt
  have hlen := length_lineBytes v
  obtain ⟨hlo, hhi⟩ := getD_lineBytes v i
  have hbyte {j : ℕ} (hj : j < 12) : at24cxxReadOneByte (at24cxxWrite m addr (Dev.lineBytes v))
    (addr + j) =
      (Dev.lineBytes v).getD j 0 := by
    rw [readOneByte_eq _ (by omega), write_apply _ _ _ (by omega), if_pos (by omega),
      Nat.add_sub_cancel_left]
  rw [lineVals, Nat.add_assoc, hbyte (by omega), hbyte (by omega), hlo, hhi, bytesU16_u16Bytes]
  exact Int16.toInt16_toUInt16 _

/-- The variables come back as they were stored. -/
theorem read_write (g : Area) (v : g.Value) (m : Eeprom) : g.read (g.write v m) = v := by
  cases g with
  | net => exact LwipDev.readNetParas_writeNetParas m v
  | config =>
    simp only [read, write, readConfigCodeToEEProm, writeConfigCodeToEEProm]
    rw [readOneByte_writeOneByte, if_pos rfl]
  | zero f =>
    have hf := f.isLt
    simp only [read, write, readAdcZeroFromEEProm, writeAdcZeroToEEProm]
    exact lineVals_write m (by simp only [aAdcZeroAddr]; omega) v
  | base f =>
    have hf := f.isLt
    simp only [read, write, readAdcBaseFromEEProm, writeAdcBaseToEEProm]
    exact lineVals_write m (by simp only [aAdcBaseAddr]; omega) v
  | threshold =>
    obtain ⟨up, down⟩ := v
    simp only [read, write, readAlmThrdFromEEProm, writeAlmThrdToEEProm]
    refine Prod.ext ?_ ?_
    · exact readU16_write (k := 0) (by simp [u16Bytes, almThrdAddr]) (by simp [u16Bytes]) rfl rfl
    · exact readU16_write (k := 2) (by simp [u16Bytes, almThrdAddr]) (by simp [u16Bytes]) rfl rfl
  | control =>
    obtain ⟨fc, b, a⟩ := v
    obtain ⟨-, h2, h0, h1⟩ := Dev.controlByte_bits fc a b
    simp only [read, write, readControlParaFromEEProm, writeControlParaToEEProm, at24cxxWrite]
    rw [readOneByte_writeOneByte, if_pos rfl, h2, h0, h1]
  | switches =>
    simp only [read, write, readSWValToEEProm, writeSWValToEEProm, at24cxxWrite,
      readOneByte_writeOneByte]
    funext i
    rcases zone_cases i with rfl | rfl
    · rfl
    · rfl
  | range =>
    simp only [read, write, readTensionMaxRangeFromEEProm, writeTensionMaxRangeToEEProm]
    exact readU16_write (k := 0) (by simp [u16Bytes, tensionMaxRangeAddr]) (by simp [u16Bytes]) rfl rfl
  | time =>
    simp only [read, write, readBaseAutoCalibrateTimeFromEEProm, writeBaseAutoCalibrateTimeToEEProm]
    exact readU16_write (k := 0) (by simp [u16Bytes, baseAutoCalibrateTimeAddr])
      (by simp [u16Bytes]) rfl rfl
  | zones => exact readFieldPara_writeFieldPara m v
  | pointer t =>
    have hv := v.toNat_lt
    simp only [read, write]
    rw [Log.readLenByte_writeLenByte m (by omega), UInt16.ofNat_toNat]
  | entry t k => exact Subtype.ext (Log.slotBytes_write_self m t k.isLt v.2)

/-- The EEPROM as it is laid out in `24cxx.h` and `log.h`. -/
def layout : Layout Area ℕ UInt8 Value where
  owner := owner
  write := write
  read := read
  write_frame {_ v _ _} h := write_owner h v
  write_owned {_ v _ _ _} h := write_owned h v
  read_congr h := read_owner h
  read_write := read_write

end Area

namespace Eeprom

open FieldPara

/-- A store: the function of a group, with the values of the variables when it is called. -/
abbrev Store : Type := Σ g : Area, g.Value

/-- The value a group was last stored with. -/
def lastStored (g : Area) : List Store → Option g.Value := Layout.last g

/-- Each group reads as it was last stored, whatever else is stored; else as it was. -/
theorem read_stores (m : Eeprom) (stores : List Store) (g : Area) :
    g.read (stores.foldl (fun m s => s.1.write s.2 m) m) = (lastStored g stores).getD (g.read m) :=
  Area.layout.read_run g stores m

end Eeprom

/-! ### The callers -/

open Area

section Dev

variable (d : Dev)

theorem Dev.mem_storePara : d.storePara.mem = zones.write d.para d.mem := rfl

theorem Dev.mem_storeAlmThrd : d.storeAlmThrd.mem =
    threshold.write (d.alarm.alarmThresholdUpDif, d.alarm.alarmThresholdDownDif) d.mem := rfl

theorem Dev.mem_storeControlPara : d.storeControlPara.mem =
    control.write (d.alarm.flagFcgjsn, d.alarm.buFangFlag 1, d.alarm.buFangFlag 0) d.mem := rfl

theorem Dev.mem_setTensionMaxRange (v : UInt16) :
    (d.setTensionMaxRange v).mem = range.write v d.mem := rfl

theorem Dev.mem_setBaseAutoCalibrateTime (v : UInt16) :
    (d.setBaseAutoCalibrateTime v).mem = time.write v d.mem := rfl

theorem Dev.mem_setConfigCode (v : BitVec 8) :
    (d.setConfigCode v).mem = config.write (UInt8.ofBitVec v) d.mem := rfl

theorem Dev.mem_writeAdcZero (f : Zone) :
    (d.writeAdcZeroToEEProm f).mem = (zero f).write (d.adc.zeroVal f) d.mem := rfl

theorem Dev.mem_writeAdcBase (f : Zone) :
    (d.writeAdcBaseToEEProm f).mem = (base f).write (d.adc.baseVal f) d.mem := rfl

end Dev

theorem Station.mem_setSWValue (pins : Fin 2 → Bool) (sw1 sw2 : Int8) (st : Station) :
    (st.setSWValue pins sw1 sw2).dev.mem = switches.write ![sw1, sw2] st.dev.mem := by
  simp only [setSWValue, updateSWAlarmState, onDev]
  rfl

theorem Host.mem_lwipResetNetifIpaddr (h : Host) :
    h.lwipResetNetifIpaddr.mem = net.write h.lwipdev h.mem := rfl

/-- A log entry is stored in its slot, then the pointer behind it. -/
theorem Log.mem_writeLog (m : Eeprom) (s : Log) (t : LogType) (k : Fin 300)
    (hnext : s.nextWriteAddrVal t = slotAddr t k) (rtcTempStr : List UInt8)
    (htime : rtcTempStr.length = 19)
    (alarmFlag : UInt8) : (Log.writeLog m s t rtcTempStr alarmFlag).1 =
      (pointer t).write (UInt16.ofNat (slotAddr t (Ring.succ 300 k)))
        ((entry t k).write ⟨rtcTempStr ++ [alarmFlag], by rw [List.length_append, htime]; rfl⟩ m) := by
  have hlt := slotAddr_lt t (Ring.succ_lt k.isLt).le
  simp only [Log.writeLog, hnext, advance_slotAddr t k.isLt, Area.write]
  rw [UInt16.toNat_ofNat', Nat.mod_eq_of_lt (by omega)]

/-- The pointer of an erased log is set to its first slot. -/
theorem Log.mem_logInitType (ms : Eeprom × Log) (t : LogType) : (Log.logInitType ms t).1 =
    if (pointer t).read ms.1 = 0xffff then (pointer t).write
    (UInt16.ofNat (slotAddr t 0)) ms.1 else ms.1 := by
  have hlt := slotAddr_lt t (k := 0) (by omega)
  have hread := Eeprom.readLenByte_two ms.1 (logNextWAddr t)
  have h0 := (ms.1.at24cxxReadOneByte (logNextWAddr t)).toNat_lt
  have h1 := (ms.1.at24cxxReadOneByte (logNextWAddr t + 1)).toNat_lt
  have herased : ms.1.at24cxxReadLenByte (logNextWAddr t) 2 = 0xffff ↔
    (pointer t).read ms.1 = 0xffff := by
    rw [← UInt16.toNat_inj, Area.read, UInt16.toNat_ofNat', Nat.mod_eq_of_lt (by omega)]
    rfl
  simp only [logInitType, herased]
  split_ifs
  · rw [Area.write, UInt16.toNat_ofNat', Nat.mod_eq_of_lt (by omega), slotAddr_zero]
  · rfl

end VectorFence
