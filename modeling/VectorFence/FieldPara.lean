import VectorFence.Eeprom

/-! The parameters of the two zones and their copy in the EEPROM: eight bytes for each zone from
    `FieldParaAddr` on, the 16-bit values high byte first.

        num │ delay hi │ delay lo │ sens │ low hi │ low lo │ high hi │ high lo

    At start-up `ALARM_Init` takes a single `0xFF` in one of the two delay bytes of zone A for an
    EEPROM that was never programmed. A delay whose low byte is `0xFF` is therefore lost. -/

namespace VectorFence

/-- Zone A is 0, zone B is 1. -/
abbrev Zone := Fin 2

instance Zone.neZero : NeZero 2 := ⟨two_ne_zero⟩

theorem zone_cases : ∀ i : Zone, i = 0 ∨ i = 1 := by decide

/-- The zone parameters in RAM; `tenValRange i 0` is the lower limit of zone `i`. -/
@[ext]
structure FieldPara where
  fieldNum : Zone → UInt8
  alarmDelay : Zone → UInt16
  alarmSensitivity : Zone → UInt8
  tenValRange : Zone → Fin 2 → UInt16

def fieldParaAddr : ℕ := 0x0060
def alarmDurationDefS : UInt16 := 30

namespace FieldPara

open Eeprom

/-- The initial values of the variables. -/
def powerOn : FieldPara where
  fieldNum _ := 0
  alarmDelay _ := alarmDurationDefS
  alarmSensitivity _ := 4
  tenValRange _ := ![100, 150]

/-- `(u8)((v >> 8) & 0xff)` and `(u8)(v & 0xff)`. -/
def u16Bytes (v : UInt16) : List UInt8 := [(v >>> 8).toUInt8, v.toUInt8]

/-- `(hi << 8) | lo`. -/
def bytesU16 (hi lo : UInt8) : UInt16 := hi.toUInt16 <<< 8 ||| lo.toUInt16

/-- The eight bytes of a zone. -/
def zoneBytes (p : FieldPara) (i : Zone) : List UInt8 :=
  [p.fieldNum i] ++ u16Bytes (p.alarmDelay i) ++ [p.alarmSensitivity i] ++
    u16Bytes (p.tenValRange i 0) ++ u16Bytes (p.tenValRange i 1)

/-- One byte write after the other, zone by zone; `addrTmp`, a `u8`, ends at `0x70`. -/
def writeFieldParaToEEProm (m : Eeprom) (p : FieldPara) : Eeprom :=
  at24cxxWrite (at24cxxWrite m fieldParaAddr (p.zoneBytes 0)) (fieldParaAddr + 8) (p.zoneBytes 1)

/-- The value of a 16-bit parameter stored at `addrTmp`. -/
def readU16 (m : Eeprom) (addrTmp : ℕ) : UInt16 :=
  bytesU16 (at24cxxReadOneByte m addrTmp) (at24cxxReadOneByte m (addrTmp + 1))

def readFieldParaFromEEProm (m : Eeprom) : FieldPara where
  fieldNum i := at24cxxReadOneByte m (fieldParaAddr + 8 * i)
  alarmDelay i := readU16 m (fieldParaAddr + 8 * i + 1)
  alarmSensitivity i := at24cxxReadOneByte m (fieldParaAddr + 8 * i + 3)
  tenValRange i := ![readU16 m (fieldParaAddr + 8 * i + 4), readU16 m (fieldParaAddr + 8 * i + 6)]

/-- The zone-parameter part of `ALARM_Init`, from the values the variables have. -/
def alarmInit (m : Eeprom) (p : FieldPara) : Eeprom × FieldPara :=
  if at24cxxReadOneByte m (fieldParaAddr + 1) = 0xFF ∨
      at24cxxReadOneByte m (fieldParaAddr + 2) = 0xFF then
    let p := { p with fieldNum := fun _ => 0, alarmDelay := fun _ => alarmDurationDefS }
    (writeFieldParaToEEProm m p, p)
  else (m, readFieldParaFromEEProm m)

/-! ### The stored bytes -/

theorem toNat_bytesU16 (hi lo : UInt8) : (bytesU16 hi lo).toNat = hi.toNat * 256 + lo.toNat := by
  have hhi := hi.toNat_lt
  have hlo := lo.toNat_lt
  rw [bytesU16, UInt16.toNat_or, UInt16.toNat_shiftLeft, UInt8.toNat_toUInt16, UInt8.toNat_toUInt16]
  have hshift : hi.toNat <<< ((8 : UInt16).toNat % 16) % 2 ^ 16 = hi.toNat <<< 8 := by
    rw [show (8 : UInt16).toNat % 16 = 8 from rfl, Nat.shiftLeft_eq]; omega
  rw [hshift, ← Nat.shiftLeft_add_eq_or_of_lt (i := 8) (by omega), Nat.shiftLeft_eq]

theorem toNat_u16Bytes (v : UInt16) :
    (v >>> 8).toUInt8.toNat = v.toNat / 256 ∧ v.toUInt8.toNat = v.toNat % 256 := by
  have hv := v.toNat_lt
  rw [UInt16.toNat_toUInt8, UInt16.toNat_toUInt8, UInt16.toNat_shiftRight,
    show (8 : UInt16).toNat % 16 = 8 from rfl, Nat.shiftRight_eq_div_pow]
  omega

/-- The two bytes of a 16-bit value put together again. -/
theorem bytesU16_u16Bytes (v : UInt16) : bytesU16 (v >>> 8).toUInt8 v.toUInt8 = v := by
  obtain ⟨h0, h1⟩ := toNat_u16Bytes v
  apply UInt16.toNat_inj.mp
  rw [toNat_bytesU16, h0, h1]
  omega

theorem length_zoneBytes (p : FieldPara) (i : Zone) : (p.zoneBytes i).length = 8 := rfl

/-- Byte `j` of zone `i` is found where it was written. -/
theorem readOneByte_writeFieldPara (m : Eeprom) (p : FieldPara) (i : Zone) {j : ℕ} (hj : j < 8) :
    at24cxxReadOneByte (writeFieldParaToEEProm m p) (fieldParaAddr + 8 * i + j) =
      (p.zoneBytes i).getD j 0 := by
  have hi := i.isLt
  have h0 : fieldParaAddr + (p.zoneBytes 0).length ≤ 0x10000 := by
    rw [length_zoneBytes, fieldParaAddr]; norm_num
  have h1 : fieldParaAddr + 8 + (p.zoneBytes 1).length ≤ 0x10000 := by
    rw [length_zoneBytes, fieldParaAddr]; norm_num
  have hlt : fieldParaAddr + 8 * i + j < 0x10000 := by rw [fieldParaAddr]; omega
  rw [readOneByte_eq _ hlt, writeFieldParaToEEProm, write_apply _ _ _ h1, write_apply _ _ _ h0,
    length_zoneBytes, length_zoneBytes]
  rcases zone_cases i with rfl | rfl
  · have hz : ((0 : Zone) : ℕ) = 0 := rfl
    rw [hz, if_neg (by omega), if_pos (by omega)]
    congr 1
    omega
  · have hz : ((1 : Zone) : ℕ) = 1 := rfl
    rw [hz, if_pos (by omega)]
    congr 1
    omega

theorem readU16_writeFieldPara (m : Eeprom) (p : FieldPara) (i : Zone) {j : ℕ} (hj : j + 1 < 8)
    {v : UInt16} (h0 : (p.zoneBytes i).getD j 0 = (v >>> 8).toUInt8)
    (h1 : (p.zoneBytes i).getD (j + 1) 0 = v.toUInt8) :
    readU16 (writeFieldParaToEEProm m p) (fieldParaAddr + 8 * i + j) = v := by
  rw [readU16, readOneByte_writeFieldPara m p i (by omega), Nat.add_assoc,
    readOneByte_writeFieldPara m p i hj, h0, h1, bytesU16_u16Bytes]

/-- Reading the parameters back where they were written. -/
theorem readFieldPara_writeFieldPara (m : Eeprom) (p : FieldPara) :
    readFieldParaFromEEProm (writeFieldParaToEEProm m p) = p := by
  refine FieldPara.ext (funext fun i => ?_) (funext fun i => ?_) (funext fun i => ?_)
    (funext fun i => funext fun k => ?_)
  · exact readOneByte_writeFieldPara m p i (j := 0) (by norm_num)
  · exact readU16_writeFieldPara m p i (j := 1) (by norm_num) rfl rfl
  · exact readOneByte_writeFieldPara m p i (j := 3) (by norm_num)
  · rcases zone_cases k with rfl | rfl
    · exact readU16_writeFieldPara m p i (j := 4) (by norm_num) rfl rfl
    · exact readU16_writeFieldPara m p i (j := 6) (by norm_num) rfl rfl

/-! ### A restart -/

/-- The erased-EEPROM test looks at the two bytes of zone A's delay. -/
theorem alarmInit_writeFieldPara (m : Eeprom) (p q : FieldPara) :
    (alarmInit (writeFieldParaToEEProm m p) q).2 = p ∧
      (alarmInit (writeFieldParaToEEProm m p) q).1 = writeFieldParaToEEProm m p ↔
    (p.alarmDelay 0).toNat / 256 ≠ 255 ∧ (p.alarmDelay 0).toNat % 256 ≠ 255 := by
  obtain ⟨hhi, hlo⟩ := toNat_u16Bytes (p.alarmDelay 0)
  have hff (b : UInt8) : b = 0xFF ↔ b.toNat = 255 := UInt8.toNat_inj.symm
  have h1 : at24cxxReadOneByte (writeFieldParaToEEProm m p) (fieldParaAddr + 1) =
      (p.alarmDelay 0 >>> 8).toUInt8 := readOneByte_writeFieldPara m p 0 (by norm_num)
  have h2 : at24cxxReadOneByte (writeFieldParaToEEProm m p) (fieldParaAddr + 2) =
      (p.alarmDelay 0).toUInt8 := readOneByte_writeFieldPara m p 0 (by norm_num)
  simp only [alarmInit, h1, h2, hff, hhi, hlo]
  split_ifs with h
  · -- the defaults have another delay
    refine iff_of_false (fun ⟨hp, _⟩ => ?_) fun ⟨h0, h1⟩ => h.elim h0 h1
    have hd : (p.alarmDelay 0).toNat = 30 := by rw [← hp]; rfl
    omega
  · exact iff_of_true ⟨readFieldPara_writeFieldPara m p, rfl⟩
      ⟨fun h0 => h (Or.inl h0), fun h1 => h (Or.inr h1)⟩

/-- A delay of 255 seconds comes back as 30. -/
theorem not_alarmInit_writeFieldPara : ¬ ∀ (m : Eeprom) (p : FieldPara),
    (∀ i, (p.fieldNum i).toNat ≤ 80) → (∀ i, (p.alarmDelay i).toNat ≤ 999) →
    (∀ i, 1 ≤ (p.alarmSensitivity i).toNat ∧ (p.alarmSensitivity i).toNat ≤ 10) →
    (alarmInit (writeFieldParaToEEProm m p) powerOn).2 = p ∧
      (alarmInit (writeFieldParaToEEProm m p) powerOn).1 = writeFieldParaToEEProm m p := by
  intro h
  have hp := (h (fun _ => 0) { powerOn with alarmDelay := fun _ => 255 } (by decide) (by decide)
    (by decide)).1
  have hd := congrArg (fun p => p.alarmDelay 0) hp
  revert hd
  decide +kernel

end FieldPara

end VectorFence
