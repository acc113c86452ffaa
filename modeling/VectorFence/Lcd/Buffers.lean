import VectorFence.Lcd.Editors
import VectorFence.Lcd.LineTables

/-! The character buffers of `DisplayMenu.c`, and of `main.c` for the two editors of digits. A
    screen prints its numbers and names into arrays on the stack:

        fangquhao[3]  "%02d"      gaojingyanshi[4]  "%03d"      lingmindu[3]  "%02d"      wire_1[3]  "%02d"

    A format gives the least number of characters, and the arrays are as large as what the panel
    itself can enter needs. Three screens of the inquiry menu have an array that is declared as
    `""`, of a single byte. -/

namespace VectorFence

open CStr LineTable

/-- What `sprintf` or `strcpy` writes, and the size of the array it writes to. -/
structure Print where
  size : ℕ
  text : CStr

namespace Print

/-- The array holds the text and its NUL. -/
def Fits (w : Print) : Prop := w.text.length + 1 ≤ w.size

instance (w : Print) : Decidable w.Fits := by unfold Fits; infer_instance

/-- `sprintf(fangquhao, "%02d", v)`. -/
def fangquhao (v : UInt8) : Print := ⟨3, dec 2 v.toNat⟩

def gaojingyanshi (v : UInt16) : Print := ⟨4, dec 3 v.toNat⟩

def lingmindu (v : UInt8) : Print := ⟨3, dec 2 v.toNat⟩

/-- `min_tension`, `max_tension`. -/
def tension (v : UInt16) : Print := ⟨3, dec 2 (v.toNat / 10)⟩

/-- `shangpianyi` and `shangpianyi_dot`, `xiapianyi` and `xiapianyi_dot`. -/
def pianyi (v : UInt16) : List Print := [⟨3, dec 2 (v.toNat / 10)⟩, ⟨2, dec 1 (v.toNat % 10)⟩]

/-- `wire_1`, `wire_1_dot` and so on to `wire_6_dot`. -/
def wires (whole tenth : Line → Int16) : List Print :=
  (List.finRange 6).flatMap fun i => [⟨3, wire (whole i)⟩, ⟨2, wireDot (tenth i)⟩]

/-- The names of the device types 0 to 8, from `无设备` to `其它设备`. -/
def deviceNames : List CStr :=
  [[0xCE, 0xDE, 0xC9, 0xE8, 0xB1, 0xB8],
   [0xD6, 0xF7, 0xB6, 0xAF, 0xBA, 0xEC, 0xCD, 0xE2],
   [0xB1, 0xBB, 0xB6, 0xAF, 0xBA, 0xEC, 0xCD, 0xE2],
   [0xCB, 0xAB, 0xBC, 0xF8, 0xCC, 0xBD, 0xB2, 0xE2],
   [0xBB, 0xB7, 0xBE, 0xB3, 0xCC, 0xBD, 0xB2, 0xE2],
   [0xC3, 0xC5, 0xB4, 0xC5, 0xCC, 0xBD, 0xB2, 0xE2],
   [0xBD, 0xF4, 0xBC, 0xB1, 0xB0, 0xB4, 0xC5, 0xA5],
   [0xCB, 0xAE, 0xBD, 0xFE, 0xCC, 0xBD, 0xB2, 0xE2],
   [0xC6, 0xE4, 0xCB, 0xFC, 0xC9, 0xE8, 0xB1, 0xB8]]

/-- The `switch` over `SW_Type[i]` with its `strcpy`; another value copies nothing. -/
def device (size : ℕ) (swType : Int8) : List Print :=
  if swType < 0 then [] else (deviceNames[swType.toInt.toNat]?).toList.map (mk size)

end Print

namespace Panel

open Print

/-! ### The screens -/

/-- The number, the delay and the sensitivity on the screen of a zone. In a row that is edited they
    are its copy and, whatever the row, the copy of the sensitivity. -/
def shownPara (f : Zone) (p : Panel) : Option (UInt8 × UInt16 × UInt8) :=
  let q := p.station.dev.para
  let t := p.temps
  match p.lcd.flagPageState with
  | .normalState => some (q.fieldNum f, q.alarmDelay f, q.alarmSensitivity f)
  | .modifyState =>
    if p.lcd.rowPoint = 1 then some (t.fieldNum f, q.alarmDelay f, t.alarmSensitivity f)
    else if p.lcd.rowPoint = 2 then some (q.fieldNum f, t.alarmDelay f, t.alarmSensitivity f)
    else if p.lcd.rowPoint = 3 then some (q.fieldNum f, q.alarmDelay f, t.alarmSensitivity f)
    else none

def setFangQuPara (f : Zone) (p : Panel) : List Print :=
  (p.shownPara f).elim [] fun v => [fangquhao v.1, gaojingyanshi v.2.1, lingmindu v.2.2]

def displaySetAFangQuPara (p : Panel) : List Print := p.setFangQuPara 0

def displaySetBFangQuPara (p : Panel) : List Print := p.setFangQuPara 1

/-- The fourth row scrolls the screen. -/
def inqFangQuPara (f : Zone) (p : Panel) : List Print :=
  let q := p.station.dev.para
  if p.lcd.rowPoint > 3 then
    [gaojingyanshi (q.alarmDelay f), tension (q.tenValRange f 0), tension (q.tenValRange f 1),
      lingmindu (q.alarmSensitivity f)]
  else
    [fangquhao (q.fieldNum f), gaojingyanshi (q.alarmDelay f), tension (q.tenValRange f 0),
      tension (q.tenValRange f 1)]

def diaplayInqAFangQuPara (p : Panel) : List Print := p.inqFangQuPara 0

def diaplayInqBFangQuPara (p : Panel) : List Print := p.inqFangQuPara 1

/-- `DisplayAareaZeroVal`, `DisplayBareaZeroVal`, `DisplayAareaDatumVal` and `DisplayBareaDatumVal`. -/
def displayVal (t : Target) (f : Zone) (p : Panel) : List Print :=
  wires (own p.station.dev.adc t f) (tenth p.station.dev.adc t f)

/-- The thresholds on their screen, one of which may be a copy. -/
def shownThreshold (p : Panel) : Option (UInt16 × UInt16) :=
  let a := p.station.dev.alarm
  let t := p.temps
  match p.lcd.flagPageState with
  | .normalState => some (a.alarmThresholdUpDif, a.alarmThresholdDownDif)
  | .modifyState =>
    if p.lcd.rowPoint = 1 then some (t.alarmThresholdUpDif, a.alarmThresholdDownDif)
    else if p.lcd.rowPoint = 2 then some (a.alarmThresholdUpDif, t.alarmThresholdDownDif)
    else none

def diaplaySetAlarmThreshold (p : Panel) : List Print :=
  p.shownThreshold.elim [] fun v => pianyi v.1 ++ pianyi v.2

def displayInqAlarmThreshold (p : Panel) : List Print :=
  pianyi p.station.dev.alarm.alarmThresholdUpDif ++ pianyi p.station.dev.alarm.alarmThresholdDownDif

/-- `line_2[16]` and `line_3[16]`. -/
def diaplaySetExtDeviceTypeScreen (fieldFlagS0D1 : Bool) (p : Panel) : List Print :=
  match p.lcd.flagPageState with
  | .normalState =>
    device 16 (p.station.swType 0) ++ if fieldFlagS0D1 then [] else device 16 (p.station.swType 1)
  | .modifyState =>
    if p.lcd.rowPoint = 1 ∨ p.lcd.rowPoint = 2 then
      device 16 (p.station.swType 0) ++ device 16 (p.station.swType 1)
    else []

/-- `line_2_2[] = ""` and `line_3_2[] = ""`. -/
def displayInqExtDeviceType (fieldFlagS0D1 : Bool) (p : Panel) : List Print :=
  device 1 (p.station.swType 0) ++ if fieldFlagS0D1 then [] else device 1 (p.station.swType 1)

/-- `fullscale[] = ""`. -/
def displayInqFullScale (p : Panel) : List Print :=
  [⟨1, dec 3 (p.station.dev.adc.tensionMaxRange.toNat / 10)⟩]

/-- `calibratetime[] = ""`. -/
def displayInqBaseAutoCalibrateTime (p : Panel) : List Print :=
  [⟨1, dec 5 p.station.dev.adc.baseAutoCalibrateTime.toNat⟩]

/-- `tension_max_range_temp[4]` and `base_auto_calibrate_time_tmp[6]`, filled by ENTER in the menu
    of settings. -/
def printSetMenu (p : Panel) : List Print :=
  let q := p.enterSetMenu p.lcd.rowPoint
  if p.lcd.rowPoint = 8 then [⟨4, q.temps.tensionMaxRange⟩]
  else if p.lcd.rowPoint = 9 then [⟨6, q.temps.baseAutoCalibrateTime⟩]
  else []

end Panel

/-- The places that print a parameter or a value of a calibration. -/
inductive Drawing where
  | setFangQuPara (f : Zone)
  | inqFangQuPara (f : Zone)
  | val (t : Target) (f : Zone)
  | setAlarmThreshold
  | inqAlarmThreshold
  | setExtDeviceType
  | inqExtDeviceType
  | inqFullScale
  | inqBaseAutoCalibrateTime
  | setMenu
  deriving DecidableEq, Repr

namespace Drawing

open Panel

/-- What is printed with the pin `FIELD_FLAG_S0D1` at a level. -/
def prints (fieldFlagS0D1 : Bool) (p : Panel) : Drawing → List Print
  | setFangQuPara f => if f = 0 then p.displaySetAFangQuPara else p.displaySetBFangQuPara
  | inqFangQuPara f => if f = 0 then p.diaplayInqAFangQuPara else p.diaplayInqBFangQuPara
  | val t f => p.displayVal t f
  | setAlarmThreshold => p.diaplaySetAlarmThreshold
  | inqAlarmThreshold => p.displayInqAlarmThreshold
  | setExtDeviceType => p.diaplaySetExtDeviceTypeScreen fieldFlagS0D1
  | inqExtDeviceType => p.displayInqExtDeviceType fieldFlagS0D1
  | inqFullScale => p.displayInqFullScale
  | inqBaseAutoCalibrateTime => p.displayInqBaseAutoCalibrateTime
  | setMenu => p.printSetMenu

/-- Everything that is printed fits. -/
def Fits (fieldFlagS0D1 : Bool) (p : Panel) (d : Drawing) : Prop :=
  ∀ w ∈ d.prints fieldFlagS0D1 p, w.Fits

/-- The names are for the types 0 to 8. -/
def Named (v : Int8) : Prop := 0 ≤ v ∧ v ≤ 8

/-- The values have no more characters than there is room for. -/
def Ok (fieldFlagS0D1 : Bool) (p : Panel) : Drawing → Prop
  | setFangQuPara f => ∀ v ∈ p.shownPara f, v.1 < 100 ∧ v.2.1 < 1000 ∧ v.2.2 < 100
  | inqFangQuPara f =>
    let q := p.station.dev.para
    (p.lcd.rowPoint > 3 → q.alarmSensitivity f < 100) ∧ (p.lcd.rowPoint ≤ 3 → q.fieldNum f < 100) ∧
      q.alarmDelay f < 1000 ∧ ∀ k, q.tenValRange f k < 1000
  | val t f => ∀ i,
    (-100 < (own p.station.dev.adc t f i).toInt ∧ (own p.station.dev.adc t f i).toInt < 1000) ∧
      0 ≤ tenthDigit (tenth p.station.dev.adc t f i)
  | setAlarmThreshold => ∀ v ∈ p.shownThreshold, v.1 < 1000 ∧ v.2 < 1000
  | inqAlarmThreshold =>
    p.station.dev.alarm.alarmThresholdUpDif < 1000 ∧ p.station.dev.alarm.alarmThresholdDownDif < 1000
  | setExtDeviceType => True
  | inqExtDeviceType =>
      ¬Named (p.station.swType 0) ∧ (fieldFlagS0D1 = false → ¬Named (p.station.swType 1))
  | inqFullScale | inqBaseAutoCalibrateTime => False
  | setMenu => p.lcd.rowPoint = 8 → p.station.dev.adc.tensionMaxRange < 10000

/-! ### How long the texts are -/

section Length

variable {w k n : ℕ}

theorem fits_dec (hk : 0 < k) (hw : w ≤ k) : Print.Fits ⟨k + 1, dec w n⟩ ↔ n < 10 ^ k := by
  rw [Print.Fits, Nat.add_le_add_iff_right, length_dec_le hk hw]

/-- A single byte has no room for a digit. -/
theorem not_fits_one : ¬Print.Fits ⟨1, dec w n⟩ := by
  have hpos := length_dec_pos w n
  intro h
  have hlen : (dec w n).length + 1 ≤ 1 := h
  omega

theorem fits_fangquhao (v : UInt8) : (Print.fangquhao v).Fits ↔ v < 100 := by
  rw [UInt8.lt_iff_toNat_lt]
  exact fits_dec (by norm_num) le_rfl

theorem fits_lingmindu (v : UInt8) : (Print.lingmindu v).Fits ↔ v < 100 := by
  rw [UInt8.lt_iff_toNat_lt]
  exact fits_dec (by norm_num) le_rfl

theorem fits_gaojingyanshi (v : UInt16) : (Print.gaojingyanshi v).Fits ↔ v < 1000 := by
  rw [UInt16.lt_iff_toNat_lt]
  exact fits_dec (by norm_num) le_rfl

/-- The digits before the point of a value in tenths. -/
theorem fits_div (hk : 0 < k) (hw : w ≤ k) (v : UInt16) :
    Print.Fits ⟨k + 1, dec w (v.toNat / 10)⟩ ↔ v.toNat < 10 ^ (k + 1) := by
  rw [fits_dec hk hw, Nat.div_lt_iff_lt_mul (by norm_num), pow_succ]

theorem fits_tension (v : UInt16) : (Print.tension v).Fits ↔ v < 1000 := by
  rw [UInt16.lt_iff_toNat_lt]
  exact fits_div (by norm_num) le_rfl v

theorem fits_pianyi (v : UInt16) : (∀ w ∈ Print.pianyi v, w.Fits) ↔ v < 1000 := by
  have hdot : Print.Fits ⟨2, dec 1 (v.toNat % 10)⟩ :=
    (fits_dec (by norm_num) le_rfl).mpr (Nat.mod_lt _ (by norm_num))
  rw [Print.pianyi, List.forall_mem_cons, List.forall_mem_singleton, and_iff_left hdot]
  exact fits_tension v

theorem fits_wire (v : Int16) : Print.Fits ⟨3, wire v⟩ ↔ -100 < v.toInt ∧ v.toInt < 1000 := by
  have hlen : Print.Fits ⟨3, wire v⟩ ↔ -10 < v.toInt.tdiv 10 ∧ v.toInt.tdiv 10 < 100 := by
    rw [Print.Fits, Nat.add_le_add_iff_right]
    exact length_pad_le (by norm_num) le_rfl
  rw [hlen]
  rcases le_total 0 v.toInt with hpos | hneg
  · rw [Int.tdiv_eq_ediv_of_nonneg hpos]
    omega
  · rw [← neg_neg v.toInt, Int.neg_tdiv, Int.tdiv_eq_ediv_of_nonneg (neg_nonneg.mpr hneg)]
    omega

theorem fits_wireDot (v : Int16) : Print.Fits ⟨2, wireDot v⟩ ↔ 0 ≤ tenthDigit v := by
  have hlt : tenthDigit v < 10 := Int.tmod_lt_of_pos _ (by norm_num)
  have hlen : Print.Fits ⟨2, wireDot v⟩ ↔ -1 < tenthDigit v ∧ tenthDigit v < 10 := by
    rw [Print.Fits, Nat.add_le_add_iff_right]
    exact length_pad_le (by norm_num) le_rfl
  rw [hlen]
  omega

theorem fits_wires (whole tenth : Line → Int16) : (∀ w ∈ Print.wires whole tenth, w.Fits) ↔
    ∀ i, (-100 < (whole i).toInt ∧ (whole i).toInt < 1000) ∧ 0 ≤ tenthDigit (tenth i) := by
  rw [Print.wires, List.forall_mem_flatMap]
  simp only [List.mem_finRange, forall_const, List.forall_mem_cons, List.not_mem_nil, false_imp_iff,
    implies_true, and_true, fits_wire, fits_wireDot]

theorem mem_device {size : ℕ} {v : Int8} {w : Print} (h : w ∈ Print.device size v) :
    w.size = size ∧ w.text ∈ Print.deviceNames := by
  rw [Print.device] at h
  split_ifs at h
  · exact absurd h List.not_mem_nil
  · obtain ⟨name, hname, rfl⟩ := List.mem_map.mp h
    exact ⟨rfl, List.mem_of_getElem? (Option.mem_toList.mp hname)⟩

theorem deviceNames_length : ∀ name ∈ Print.deviceNames, 6 ≤ name.length ∧ name.length ≤ 8 := by decide

theorem fits_device {v : Int8} : ∀ w ∈ Print.device 16 v, w.Fits := by
  intro w hw
  obtain ⟨hsize, hname⟩ := mem_device hw
  have hlen := (deviceNames_length w.text hname).2
  rw [Print.Fits, hsize]
  omega

/-- A name is copied for the types that have one. -/
theorem device_eq_nil (size : ℕ) {v : Int8} : Print.device size v = [] ↔ ¬Named v := by
  have hcount : Print.deviceNames.length = 9 := rfl
  have h0 : 0 ≤ v ↔ 0 ≤ v.toInt := Int8.le_iff_toInt_le
  have h8 : v ≤ 8 ↔ v.toInt ≤ 8 := Int8.le_iff_toInt_le
  rw [Named, Print.device]
  split_ifs with hneg
  · exact iff_of_true rfl fun h => Int8.not_le.mpr hneg h.1
  · rw [List.map_eq_nil_iff, Option.toList_eq_nil_iff, List.getElem?_eq_none_iff, hcount,
      and_iff_right (Int8.not_lt.mp hneg), h8]
    have hpos := h0.mp (Int8.not_lt.mp hneg)
    omega

/-- No name fits into a single byte. -/
theorem fits_device_one {v : Int8} : (∀ w ∈ Print.device 1 v, w.Fits) ↔ ¬Named v := by
  rw [← device_eq_nil 1, List.eq_nil_iff_forall_not_mem]
  refine forall_congr' fun w => ⟨fun h hw => ?_, fun h hw => absurd hw h⟩
  obtain ⟨hsize, hname⟩ := mem_device hw
  have hlen := (deviceNames_length w.text hname).1
  have hfits := h hw
  rw [Print.Fits, hsize] at hfits
  omega

end Length

/-! ### Which values fit -/

variable {fieldFlagS0D1 : Bool} {p : Panel}

theorem setFangQuPara_fits (f : Zone) :
    (setFangQuPara f).Fits fieldFlagS0D1 p ↔ (setFangQuPara f).Ok fieldFlagS0D1 p := by
  have hprints : (setFangQuPara f).prints fieldFlagS0D1 p = p.setFangQuPara f := by
    rcases zone_cases f with rfl | rfl <;> rfl
  rw [Fits, hprints, Panel.setFangQuPara, Ok]
  rcases p.shownPara f with _ | v
  · simp
  · simp [fits_fangquhao, fits_gaojingyanshi, fits_lingmindu]

theorem inqFangQuPara_fits (f : Zone) :
    (inqFangQuPara f).Fits fieldFlagS0D1 p ↔ (inqFangQuPara f).Ok fieldFlagS0D1 p := by
  have hprints : (inqFangQuPara f).prints fieldFlagS0D1 p = p.inqFangQuPara f := by
    rcases zone_cases f with rfl | rfl <;> rfl
  rw [Fits, hprints, Panel.inqFangQuPara, Ok]
  split_ifs with hrow
  · have hle : ¬p.lcd.rowPoint ≤ 3 := UInt8.not_le.mpr hrow
    simp [fits_gaojingyanshi, fits_lingmindu, fits_tension, Fin.forall_fin_two, hrow, hle]
    tauto
  · have hle : p.lcd.rowPoint ≤ 3 := UInt8.not_lt.mp hrow
    simp [fits_gaojingyanshi, fits_fangquhao, fits_tension, Fin.forall_fin_two, hrow, hle]

theorem setAlarmThreshold_fits :
    setAlarmThreshold.Fits fieldFlagS0D1 p ↔ setAlarmThreshold.Ok fieldFlagS0D1 p := by
  rw [Fits, prints, Panel.diaplaySetAlarmThreshold, Ok]
  rcases p.shownThreshold with _ | v
  · simp
  · rw [Option.elim_some, List.forall_mem_append, fits_pianyi, fits_pianyi]
    simp

theorem setExtDeviceType_fits : setExtDeviceType.Fits fieldFlagS0D1 p := by
  intro w hw
  rw [prints, Panel.diaplaySetExtDeviceTypeScreen] at hw
  have hdevice : w ∈ Print.device 16 (p.station.swType 0) ∨
    w ∈ Print.device 16 (p.station.swType 1) := by
    split at hw
    · rcases List.mem_append.mp hw with h | h
      · exact Or.inl h
      · split_ifs at h
        · exact absurd h List.not_mem_nil
        · exact Or.inr h
    · split_ifs at hw
      · exact List.mem_append.mp hw
      · exact absurd hw List.not_mem_nil
  rcases hdevice with h | h <;> exact fits_device w h

theorem inqExtDeviceType_fits :
    inqExtDeviceType.Fits fieldFlagS0D1 p ↔ inqExtDeviceType.Ok fieldFlagS0D1 p := by
  rw [Fits, prints, Panel.displayInqExtDeviceType, Ok, List.forall_mem_append, fits_device_one]
  split_ifs with hflag
  · simp [hflag]
  · rw [fits_device_one]
    simp [hflag]

theorem setMenu_fits : setMenu.Fits fieldFlagS0D1 p ↔ setMenu.Ok fieldFlagS0D1 p := by
  rw [Fits, prints, Panel.printSetMenu, Panel.enterSetMenu, Ok]
  split_ifs with h8 h9
  · rw [List.forall_mem_singleton, imp_iff_right h8, UInt16.lt_iff_toNat_lt]
    exact fits_div (by norm_num) le_rfl _
  · have htime := p.station.dev.adc.baseAutoCalibrateTime.toNat_lt
    rw [List.forall_mem_singleton]
    exact iff_of_true ((fits_dec (by norm_num) le_rfl).mpr (by omega)) fun h => absurd h h8
  · simp [h8]

/-- What is printed fits for these values, and for no others. -/
theorem fits_iff (d : Drawing) : d.Fits fieldFlagS0D1 p ↔ d.Ok fieldFlagS0D1 p := by
  cases d with
  | setFangQuPara f => exact setFangQuPara_fits f
  | inqFangQuPara f => exact inqFangQuPara_fits f
  | val t f => exact fits_wires ..
  | setAlarmThreshold => exact setAlarmThreshold_fits
  | inqAlarmThreshold =>
    rw [Fits, prints, Panel.displayInqAlarmThreshold, List.forall_mem_append, fits_pianyi,
      fits_pianyi, Ok]
  | setExtDeviceType => exact iff_of_true setExtDeviceType_fits trivial
  | inqExtDeviceType => exact inqExtDeviceType_fits
  | inqFullScale =>
      exact iff_of_false (fun h => not_fits_one (h _ (List.mem_singleton_self _))) not_false
  | inqBaseAutoCalibrateTime =>
      exact iff_of_false (fun h => not_fits_one (h _ (List.mem_singleton_self _))) not_false
  | setMenu => exact setMenu_fits

end Drawing

end VectorFence
