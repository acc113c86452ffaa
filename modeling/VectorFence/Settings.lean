import VectorFence.Requests

/-! The settings of the device, each of which is in a variable and in the EEPROM. They are stored in
    blocks, one for each of the `Write…ToEEProm` functions; a function stores the whole block from
    the variables.

        0x06   0x1E      0x50        0x54     0x56      0x5A   0x5C   0x60 … 0x6F
        ip     config    threshold   control  switches  range  time   zones

    `Station.value` is a setting as it is in force, `Eeprom.stored` as the next start will find it. -/

namespace VectorFence

inductive Block where | ip | config | threshold | control | switches | range | time | zones
  deriving DecidableEq, Repr

inductive Setting where
  | fieldNum (f : Zone)
  | alarmDelay (f : Zone)
  | alarmSensitivity (f : Zone)
  | tenValRange (f : Zone) (k : Fin 2)
  | thresholdUp
  | thresholdDown
  | tensionMaxRange
  | baseAutoCalibrateTime
  | buFang (f : Zone)
  | fangChai
  | swType (i : Fin 2)
  | configCode
  | ip (i : Fin 4)
  deriving DecidableEq, Repr

namespace Block

def start : Block → ℕ
  | ip => 0x06
  | config => 0x1E
  | threshold => 0x50
  | control => 0x54
  | switches => 0x56
  | range => 0x5A
  | time => 0x5C
  | zones => 0x60

def len : Block → ℕ
  | ip => 4
  | config => 1
  | threshold => 4
  | control => 1
  | switches => 2
  | range => 2
  | time => 2
  | zones => 16

def Covers (b : Block) (x : ℕ) : Prop := b.start ≤ x ∧ x < b.start + b.len

instance (b : Block) (x : ℕ) : Decidable (b.Covers x) := by unfold Covers; infer_instance

theorem not_covers {b : Block} {x : ℕ} (h : ¬b.Covers x) : x < b.start ∨ b.start + b.len ≤ x := by
  rw [Covers] at h
  omega

theorem covers_inj {b b' : Block} {x : ℕ} (h : b.Covers x) (h' : b'.Covers x) : b = b' := by
  obtain ⟨h0, h1⟩ := h
  obtain ⟨h0', h1'⟩ := h'
  cases b <;> cases b' <;> simp only [start, len] at h0 h1 h0' h1' <;> first | rfl | omega

end Block

namespace Setting

def block : Setting → Block
  | fieldNum _ | alarmDelay _ | alarmSensitivity _ | tenValRange _ _ => .zones
  | thresholdUp | thresholdDown => .threshold
  | tensionMaxRange => .range
  | baseAutoCalibrateTime => .time
  | buFang _ | fangChai => .control
  | swType _ => .switches
  | configCode => .config
  | ip _ => .ip

end Setting

open Eeprom FieldPara

/-- A setting in the variables. -/
def Station.value (st : Station) : Setting → ℕ
  | .fieldNum f => (st.dev.para.fieldNum f).toNat
  | .alarmDelay f => (st.dev.para.alarmDelay f).toNat
  | .alarmSensitivity f => (st.dev.para.alarmSensitivity f).toNat
  | .tenValRange f k => (st.dev.para.tenValRange f k).toNat
  | .thresholdUp => st.dev.alarm.alarmThresholdUpDif.toNat
  | .thresholdDown => st.dev.alarm.alarmThresholdDownDif.toNat
  | .tensionMaxRange => st.dev.adc.tensionMaxRange.toNat
  | .baseAutoCalibrateTime => st.dev.adc.baseAutoCalibrateTime.toNat
  | .buFang f => (st.dev.alarm.buFangFlag f).bit.toNat
  | .fangChai => st.dev.alarm.flagFcgjsn.bit.toNat
  | .swType i => (st.swType i).toUInt8.toNat
  | .configCode => st.dev.alarm.configCode.toNat
  | .ip i => (st.ip i).toNat

/-- The values do not depend on the EEPROM. -/
theorem Station.value_mem (st : Station) (m : Eeprom) (s : Setting) :
    Station.value { st with dev := { st.dev with mem := m } } s = st.value s := by
  cases s <;> rfl

/-- A setting in the EEPROM, as the `Read…FromEEProm` functions read it. -/
def Eeprom.stored (m : Eeprom) : Setting → ℕ
  | .fieldNum f => ((readFieldParaFromEEProm m).fieldNum f).toNat
  | .alarmDelay f => ((readFieldParaFromEEProm m).alarmDelay f).toNat
  | .alarmSensitivity f => ((readFieldParaFromEEProm m).alarmSensitivity f).toNat
  | .tenValRange f k => ((readFieldParaFromEEProm m).tenValRange f k).toNat
  | .thresholdUp => (readU16 m almThrdAddr).toNat
  | .thresholdDown => (readU16 m (almThrdAddr + 2)).toNat
  | .tensionMaxRange => (readU16 m tensionMaxRangeAddr).toNat
  | .baseAutoCalibrateTime => (readU16 m baseAutoCalibrateTimeAddr).toNat
  | .buFang f => ((at24cxxReadOneByte m controlParaAddr).toNat.testBit f).toNat
  | .fangChai => ((at24cxxReadOneByte m controlParaAddr).toNat.testBit 2).toNat
  | .swType i => (at24cxxReadOneByte m (swValAddr + i)).toNat
  | .configCode => (at24cxxReadOneByte m configCodeAddr).toNat
  | .ip i => (at24cxxReadOneByte m (0x06 + i)).toNat

/-- The settings of a block are the same in both places. -/
def Station.InStep (b : Block) (st : Station) : Prop :=
  ∀ s : Setting, s.block = b → st.dev.mem.stored s = st.value s

/-! ### What is stored elsewhere -/

theorem Block.Covers.lt {b : Block} {x : ℕ} (h : b.Covers x) : x < 0x10000 := by
  have h1 := h.2
  cases b <;> simp only [Block.start, Block.len] at h1 <;> omega

theorem Block.covers_zone (f : Zone) {j : ℕ} (hj : j < 8) :
    Block.zones.Covers (fieldParaAddr + 8 * f + j) := by
  have hf := f.isLt
  simp only [Block.Covers, Block.start, Block.len, fieldParaAddr]
  omega

/-- A setting is read from its block only. -/
theorem Eeprom.stored_congr {m m' : Eeprom} {s : Setting} (h : ∀ x, s.block.Covers x → m' x = m x) :
    m'.stored s = m.stored s := by
  have hread {a : ℕ} (ha : s.block.Covers a) : at24cxxReadOneByte m' a = at24cxxReadOneByte m a := by
    rw [readOneByte_eq _ ha.lt, readOneByte_eq _ ha.lt, h a ha]
  have hword {a : ℕ} (ha : s.block.Covers a)
    (ha' : s.block.Covers (a + 1)) : readU16 m' a = readU16 m a := by
    rw [readU16, readU16, hread ha, hread ha']
  have hzone (f : Zone) {j : ℕ} (hj : j < 8) := Block.covers_zone f hj
  cases s with
  | fieldNum f => exact congrArg UInt8.toNat (hread (hzone f (j := 0) (by norm_num)))
  | alarmDelay f =>
    exact congrArg UInt16.toNat
      (hword (hzone f (j := 1) (by norm_num)) (hzone f (j := 2) (by norm_num)))
  | alarmSensitivity f => exact congrArg UInt8.toNat (hread (hzone f (j := 3) (by norm_num)))
  | tenValRange f k =>
    rcases zone_cases k with rfl | rfl
    · exact congrArg UInt16.toNat
        (hword (hzone f (j := 4) (by norm_num)) (hzone f (j := 5) (by norm_num)))
    · exact congrArg UInt16.toNat
        (hword (hzone f (j := 6) (by norm_num)) (hzone f (j := 7) (by norm_num)))
  | thresholdUp | thresholdDown | tensionMaxRange | baseAutoCalibrateTime =>
    exact congrArg UInt16.toNat (hword (by decide) (by decide))
  | buFang f =>
    have hc : Block.control.Covers controlParaAddr := by decide
    simp only [stored, hread hc]
  | fangChai =>
    have hc : Block.control.Covers controlParaAddr := by decide
    simp only [stored, hread hc]
  | swType i =>
    have hi := i.isLt
    refine congrArg UInt8.toNat (hread ?_)
    simp only [Setting.block, Block.Covers, Block.start, Block.len, swValAddr]
    omega
  | configCode => exact congrArg UInt8.toNat (hread (by decide))
  | ip i =>
    have hi := i.isLt
    refine congrArg UInt8.toNat (hread ?_)
    simp only [Setting.block, Block.Covers, Block.start, Block.len]
    omega

/-- Nothing outside of a block is written. -/
def Block.Frame (b : Block) (m m' : Eeprom) : Prop := ∀ x, ¬b.Covers x → m' x = m x

theorem Block.Frame.stored {b : Block} {m m' : Eeprom} (h : b.Frame m m') {s : Setting}
    (hs : s.block ≠ b) :
    m'.stored s = m.stored s :=
  Eeprom.stored_congr fun x hx => h x fun hb => hs (Block.covers_inj hx hb)

/-- A block that is left alone stays in step. -/
theorem Station.InStep.congr {b : Block} {st st' : Station} (h : st.InStep b)
    (hval : ∀ s, st'.value s = st.value s) (hmem : ∀ x, b.Covers x → st'.dev.mem x = st.dev.mem x) :
    st'.InStep b := by
  intro s hs
  rw [Eeprom.stored_congr fun x hx => hmem x (hs ▸ hx), hval, h s hs]

theorem Block.Frame.trans {b : Block} {m m' m'' : Eeprom} (h : b.Frame m m') (h' : b.Frame m' m'') :
    b.Frame m m'' := fun x hx => (h' x hx).trans (h x hx)

/-! ### What is stored in a block -/

section Written

variable {m : Eeprom} {st : Station}

/-- A 16-bit value in a buffer that was written. -/
theorem readU16_write {buf : List UInt8} {a k : ℕ} {v : UInt16} (hb : a + buf.length ≤ 0x10000)
    (hk : k + 1 < buf.length) (h0 : buf.getD k 0 = (v >>> 8).toUInt8)
    (h1 : buf.getD (k + 1) 0 = v.toUInt8) :
    readU16 (at24cxxWrite m a buf) (a + k) = v := by
  rw [readU16, readOneByte_eq _ (by omega), readOneByte_eq _ (by omega), write_apply _ _ _ hb,
    write_apply _ _ _ hb, if_pos (by omega), if_pos (by omega), Nat.add_sub_cancel_left,
    show a + k + 1 - a = k + 1 by omega, h0, h1, bytesU16_u16Bytes]

theorem inStep_zones (h : st.dev.mem = writeFieldParaToEEProm m st.dev.para) : st.InStep .zones := by
  intro s hs
  cases s with
  | fieldNum | alarmDelay | alarmSensitivity | tenValRange =>
    simp only [stored, Station.value, h, readFieldPara_writeFieldPara]
  | _ => exact absurd hs (by simp [Setting.block])

theorem inStep_threshold (h : st.dev.mem = at24cxxWrite m almThrdAddr
    (u16Bytes st.dev.alarm.alarmThresholdUpDif ++ u16Bytes st.dev.alarm.alarmThresholdDownDif)) :
    st.InStep .threshold := by
  intro s hs
  cases s with
  | thresholdUp =>
    simp only [stored, Station.value, h]
    exact congrArg UInt16.toNat
      (readU16_write (k := 0) (by simp [u16Bytes, almThrdAddr]) (by simp [u16Bytes]) rfl rfl)
  | thresholdDown =>
    simp only [stored, Station.value, h]
    exact congrArg UInt16.toNat
      (readU16_write (k := 2) (by simp [u16Bytes, almThrdAddr]) (by simp [u16Bytes]) rfl rfl)
  | _ => exact absurd hs (by simp [Setting.block])

theorem inStep_range
    (h : st.dev.mem = at24cxxWrite m tensionMaxRangeAddr (u16Bytes st.dev.adc.tensionMaxRange)) :
    st.InStep .range := by
  intro s hs
  cases s with
  | tensionMaxRange =>
    simp only [stored, Station.value, h]
    exact congrArg UInt16.toNat
      (readU16_write (k := 0) (by simp [u16Bytes, tensionMaxRangeAddr]) (by simp [u16Bytes]) rfl rfl)
  | _ => exact absurd hs (by simp [Setting.block])

theorem inStep_time
    (h : st.dev.mem = at24cxxWrite m baseAutoCalibrateTimeAddr
    (u16Bytes st.dev.adc.baseAutoCalibrateTime)) :
    st.InStep .time := by
  intro s hs
  cases s with
  | baseAutoCalibrateTime =>
    simp only [stored, Station.value, h]
    exact congrArg UInt16.toNat
      (readU16_write (k := 0) (by simp [u16Bytes, baseAutoCalibrateTimeAddr])
      (by simp [u16Bytes]) rfl rfl)
  | _ => exact absurd hs (by simp [Setting.block])

/-- The bits of the control byte are the flags. -/
theorem testBit_controlPara (d : Dev) :
    (∀ f : Zone, (d.controlPara.toNat.testBit f).toNat = (d.alarm.buFangFlag f).bit.toNat) ∧
      (d.controlPara.toNat.testBit 2).toNat = d.alarm.flagFcgjsn.bit.toNat := by
  rw [Dev.controlPara]
  have hbits (fc a b : Switch) : let byte := fc.bit <<< 2 ||| b.bit <<< 1 ||| a.bit
      (byte.toNat.testBit 0).toNat = a.bit.toNat ∧ (byte.toNat.testBit 1).toNat = b.bit.toNat ∧
        (byte.toNat.testBit 2).toNat = fc.bit.toNat := by
    cases fc <;> cases a <;> cases b <;> decide
  obtain ⟨h0, h1, h2⟩ := hbits d.alarm.flagFcgjsn (d.alarm.buFangFlag 0) (d.alarm.buFangFlag 1)
  refine ⟨fun f => ?_, h2⟩
  rcases zone_cases f with rfl | rfl
  · exact h0
  · exact h1

theorem inStep_control (h : at24cxxReadOneByte st.dev.mem controlParaAddr = st.dev.controlPara) :
    st.InStep .control := by
  obtain ⟨hbf, hfc⟩ := testBit_controlPara st.dev
  intro s hs
  cases s with
  | buFang f =>
    simp only [stored, Station.value, h]
    exact hbf f
  | fangChai =>
    simp only [stored, Station.value, h]
    exact hfc
  | _ => exact absurd hs (by simp [Setting.block])

theorem inStep_switches (h : st.dev.mem =
    at24cxxWrite m swValAddr [(st.swType 0).toUInt8, (st.swType 1).toUInt8]) : st.InStep .switches := by
  intro s hs
  cases s with
  | swType i =>
    have hi := i.isLt
    simp only [stored, Station.value, h]
    rw [readOneByte_eq _ (by rw [swValAddr]; omega), write_apply _ _ _ (by simp [swValAddr]),
      if_pos (by simp only [List.length_cons, List.length_nil]; omega), Nat.add_sub_cancel_left]
    rcases zone_cases i with rfl | rfl <;> rfl
  | _ => exact absurd hs (by simp [Setting.block])

end Written

end VectorFence
