import VectorFence.Lcd.Buffers
import VectorFence.ZoneRanges

/-! What can make a text too long for its array. The front ends on the network take any value of the
    type, and a calibration stores what it has measured:

        TCP, web     field_num 0 … 255     alarm_delay, thresholds, tension_max_range 0 … 65535
        calibrating  zero_val, base_val -32768 … 32767

    A device is `Short` when there is room for all that is printed of it. A setter keeps it so when
    its value has room, and everything else does anyway. -/

namespace VectorFence

open CStr Tcp Web LineTable

/-- The digits before the point and the one behind it have room. -/
def WireOk (v : Int16) : Prop := (-100 < v.toInt ∧ v.toInt < 1000) ∧ 0 ≤ tenthDigit v

instance (v : Int16) : Decidable (WireOk v) := by unfold WireOk; infer_instance

/-- The parameters of both zones, or their copies, have room. -/
structure ParasShort (num : Zone → UInt8) (delay : Zone → UInt16) (sensitivity : Zone → UInt8) :
    Prop where
  num : ∀ i, num i < 100
  delay : ∀ i, delay i < 1000
  sensitivity : ∀ i, sensitivity i < 100

/-- All that is printed of the device has room. -/
structure Dev.Short (d : Dev) : Prop where
  paras : ParasShort d.para.fieldNum d.para.alarmDelay d.para.alarmSensitivity
  tension : ∀ f k, d.para.tenValRange f k < 1000
  up : d.alarm.alarmThresholdUpDif < 1000
  down : d.alarm.alarmThresholdDownDif < 1000
  zero : ∀ f i, WireOk (d.adc.zeroVal f i)
  base : ∀ f i, WireOk (d.adc.baseVal f i)
  range : d.adc.tensionMaxRange < 10000

/-- The copies have room, and the full scale is edited as a number of three digits. -/
structure Temps.Short (t : Temps) : Prop where
  paras : ParasShort t.fieldNum t.alarmDelay t.alarmSensitivity
  up : t.alarmThresholdUpDif < 1000
  down : t.alarmThresholdDownDif < 1000
  length : t.tensionMaxRange.length ≤ 3
  digits : ∀ c ∈ t.tensionMaxRange, isDigit c = true

structure Panel.Short (p : Panel) : Prop where
  dev : p.station.dev.Short
  temps : p.temps.Short

/-! ### What is printed -/

namespace Drawing

/-- The arrays that are larger than a byte. -/
def Roomy : Drawing → Prop
  | inqExtDeviceType | inqFullScale | inqBaseAutoCalibrateTime => False
  | _ => True

variable {p : Panel} {fieldFlagS0D1 : Bool}

theorem ok_setFangQuPara (h : p.Short) (f : Zone) : (setFangQuPara f).Ok fieldFlagS0D1 p := by
  obtain ⟨hnum, hdelay, hsens⟩ := h.dev.paras
  obtain ⟨hnum', hdelay', hsens'⟩ := h.temps.paras
  intro v hv
  rw [Panel.shownPara] at hv
  split at hv
  · obtain rfl := Option.some.inj hv
    exact ⟨hnum f, hdelay f, hsens f⟩
  · split_ifs at hv
    · obtain rfl := Option.some.inj hv
      exact ⟨hnum' f, hdelay f, hsens' f⟩
    · obtain rfl := Option.some.inj hv
      exact ⟨hnum f, hdelay' f, hsens' f⟩
    · obtain rfl := Option.some.inj hv
      exact ⟨hnum f, hdelay f, hsens' f⟩
    · exact absurd hv (Option.not_mem_none v)

theorem ok_setAlarmThreshold (h : p.Short) : setAlarmThreshold.Ok fieldFlagS0D1 p := by
  intro v hv
  rw [Panel.shownThreshold] at hv
  split at hv
  · obtain rfl := Option.some.inj hv
    exact ⟨h.dev.up, h.dev.down⟩
  · split_ifs at hv
    · obtain rfl := Option.some.inj hv
      exact ⟨h.temps.up, h.dev.down⟩
    · obtain rfl := Option.some.inj hv
      exact ⟨h.dev.up, h.temps.down⟩
    · exact absurd hv (Option.not_mem_none v)

theorem wireOk_own (h : p.Short) (t : Target) (f : Zone) (i : Line) :
    WireOk (own p.station.dev.adc t f i) := by
  cases t with
  | zero => exact h.dev.zero f i
  | base => exact h.dev.base f i

theorem ok_of_short (h : p.Short) {d : Drawing} (hd : d.Roomy) : d.Ok fieldFlagS0D1 p := by
  cases d with
  | setFangQuPara f => exact ok_setFangQuPara h f
  | inqFangQuPara f =>
    exact ⟨fun _ => h.dev.paras.sensitivity f, fun _ => h.dev.paras.num f, h.dev.paras.delay f,
      h.dev.tension f⟩
  | val t f =>
    intro i
    exact ⟨(wireOk_own h t f i).1, (forall_tenth (wireOk_own h) t f i).2⟩
  | setAlarmThreshold => exact ok_setAlarmThreshold h
  | inqAlarmThreshold => exact ⟨h.dev.up, h.dev.down⟩
  | setExtDeviceType => trivial
  | inqExtDeviceType | inqFullScale | inqBaseAutoCalibrateTime => exact absurd hd id
  | setMenu => exact fun _ => h.dev.range

end Drawing

/-! ### Setters -/

section Setters

variable {num : Zone → UInt8} {delay : Zone → UInt16} {sensitivity : Zone → UInt8} {d : Dev}

theorem ParasShort.setNum (h : ParasShort num delay sensitivity) (i : Zone) {v : UInt8} (hv : v < 100) :
    ParasShort (Function.update num i v) delay sensitivity :=
  { h with num := (forall_update_iff (P := fun x => x < 100) h.num i v).mpr hv }

theorem ParasShort.setDelay (h : ParasShort num delay sensitivity) (i : Zone) {v : UInt16}
    (hv : v < 1000) :
    ParasShort num (Function.update delay i v) sensitivity :=
  { h with delay := (forall_update_iff (P := fun x => x < 1000) h.delay i v).mpr hv }

theorem ParasShort.setSensitivity (h : ParasShort num delay sensitivity) (i : Zone) {v : UInt8}
    (hv : v < 100) :
    ParasShort num delay (Function.update sensitivity i v) :=
  { h with sensitivity := (forall_update_iff (P := fun x => x < 100) h.sensitivity i v).mpr hv }

namespace Dev.Short

theorem storePara (h : d.Short) : d.storePara.Short := { h with }

theorem setFieldNum (h : d.Short) (i : Zone) {v : UInt8} (hv : v < 100) : (d.setFieldNum i v).Short :=
  { h with paras := h.paras.setNum i hv }

theorem setAlarmDelay (h : d.Short) (i : Zone) {v : UInt16} (hv : v < 1000) :
    (d.setAlarmDelay i v).Short :=
  { h with paras := h.paras.setDelay i hv }

theorem setAlarmSensitivity (h : d.Short) (i : Zone) {v : UInt8} (hv : v < 100) :
    (d.setAlarmSensitivity i v).Short :=
  { h with paras := h.paras.setSensitivity i hv }

theorem setAlmThrdUpDif (h : d.Short) {v : UInt16} (hv : v < 1000) : (d.setAlmThrdUpDif v).Short :=
  { h with up := hv }

theorem setAlmThrdDwDif (h : d.Short) {v : UInt16} (hv : v < 1000) : (d.setAlmThrdDwDif v).Short :=
  { h with down := hv }

theorem setTensionMaxRange (h : d.Short) {v : UInt16} (hv : v < 10000) :
    (d.setTensionMaxRange v).Short :=
  { h with range := hv }

theorem setBaseAutoCalibrateTime (h : d.Short) (v : UInt16) : (d.setBaseAutoCalibrateTime v).Short :=
  { h with }

theorem push (h : d.Short) (f : Zone) (sw : Switch) : (d.push f sw).Short := { h with }

theorem fangChai (h : d.Short) (sw : Switch) : (d.fangChai sw).Short := { h with }

theorem shutdown (h : d.Short) : d.shutdown.Short := { h with }

theorem resetSiren (h : d.Short) (f : Zone) : (d.resetSiren f).Short := { h with }

theorem clearLog (h : d.Short) (t : LogType) : (d.clearLog t).Short := by
  simp only [Dev.clearLog]
  generalize Log.fastClearLog d.mem d.log t = r
  exact { h with }

theorem request (h : d.Short) (flag : UInt8) :
    Dev.Short { d with adc := { d.adc with calibratingFlag := flag } } :=
  { h with }

theorem ite (h : d.Short) {c : Prop} [Decidable c] {d' : Dev} (h' : c → d'.Short) :
    (if c then d' else d).Short := by
  split_ifs with hc
  · exact h' hc
  · exact h

end Dev.Short

end Setters

/-! ### TCP -/

/-- The values of a request have room. -/
def BufShort (buf : List UInt8) : Prop :=
  (byteAt buf 5 < 100 ∧ u16At buf 10 < 1000 ∧ byteAt buf 12 < 100) ∧
    u16At buf 13 < 1000 ∧ u16At buf 15 < 1000 ∧ u16At buf 17 < 10000

theorem setParas_short {st : Station} {i : Zone} {buf : List UInt8} {f : UInt8}
    (hf : st.dev.zoneOf f = some i)
    (h : st.dev.Short) (hbuf : BufShort buf) : (setParas buf f st).dev.Short := by
  obtain ⟨⟨hnum, hdelay, hsens⟩, hup, hdown, hrange⟩ := hbuf
  rw [setParas_dev hf]
  refine (((Dev.Short.setAlmThrdUpDif ?_ hup).setAlmThrdDwDif hdown).setTensionMaxRange hrange)
    |>.setBaseAutoCalibrateTime _
  exact ((h.setFieldNum i hnum).setAlarmDelay _ hdelay).setAlarmSensitivity _ hsens

theorem Panel.Short.tcp {p : Panel} (h : p.Short) {recvbuf : Netbuf}
    (hok : Panel.SetsParas recvbuf p.station.dev → BufShort recvbuf.bytes) : (p.tcp recvbuf).Short := by
  by_cases hset : Panel.SetsParas recvbuf p.station.dev
  · obtain ⟨i, hi⟩ := Dev.exists_zoneOf hset.2.2.2
    rw [Panel.tcp_setParas hset]
    exact ⟨setParas_short hi h.dev (hok hset), h.temps⟩
  · have hturn := Panel.tcp_turn hset
    generalize p.tcp recvbuf = p' at hturn
    cases hturn with
    | same | reset => exact ⟨h.dev, h.temps⟩
    | arm f sw _ => exact ⟨h.dev.push f sw, h.temps⟩
    | shutdown => exact ⟨h.dev.shutdown, h.temps⟩
    | silence f => exact ⟨h.dev.resetSiren f, h.temps⟩

/-! ### Web -/

/-- The last value given for each variable has room. -/
def ParamsShort (params : CgiParams) : Prop :=
  if findCGIParameter "field_num_0" params then
    (∀ i, ∀ v ∈ lastValue (paraName .num i) params, u8 v < 100) ∧
    (∀ i, ∀ v ∈ lastValue (paraName .delay i) params, u16 v < 1000) ∧
    ∀ i, ∀ v ∈ lastValue (paraName .sensitivity i) params, (u16 v).toUInt8 < 100
  else if findCGIParameter "alarm_reset" params ∨ findCGIParameter "CTR_TYPE" params then True
  else if findCGIParameter "THRESHOLD_UP" params then
    (∀ v ∈ lastValue "THRESHOLD_UP" params, u16 v < 1000) ∧ ∀ v ∈ lastValue "THRESHOLD_DOWN" params,
      u16 v < 1000
  else if findCGIParameter "TENSION_MAX_RANGE" params then
    ∀ v ∈ lastValue "TENSION_MAX_RANGE" params, u16 v < 10000
  else True

instance (params : CgiParams) : Decidable (ParamsShort params) := by unfold ParamsShort; infer_instance

section Web

variable {d : Dev} {params : CgiParams}

theorem setZonePara_short (h : d.Short)
    (hnum : ∀ i, ∀ v ∈ lastValue (paraName .num i) params, u8 v < 100)
    (hdelay : ∀ i, ∀ v ∈ lastValue (paraName .delay i) params, u16 v < 1000)
    (hsens : ∀ i, ∀ v ∈ lastValue (paraName .sensitivity i) params, (u16 v).toUInt8 < 100) :
    (setZonePara params d).Short := by
  have htension : (params.foldl assignPara d.para).tenValRange = d.para.tenValRange := by
    refine Run.foldl_inv (fun p : FieldPara => p.tenValRange = d.para.tenValRange) (fun p kv hp =>
      ?_) params _ rfl
    rw [← hp, assignPara]
    split_ifs <;> rfl
  refine { h with paras := ⟨fun i => ?_, fun i => ?_, fun i => ?_⟩, tension := fun f k => ?_ }
  · change (params.foldl assignPara d.para).fieldNum i < 100
    rw [foldl_fieldNum]
    exact (getD_iff (P := fun v => v < 100) (h.paras.num i) _ _).mpr (hnum i)
  · change (params.foldl assignPara d.para).alarmDelay i < 1000
    rw [foldl_alarmDelay]
    exact (getD_iff (P := fun v => v < 1000) (h.paras.delay i) _ _).mpr (hdelay i)
  · change (params.foldl assignPara d.para).alarmSensitivity i < 100
    rw [foldl_alarmSensitivity]
    exact (getD_iff (P := fun v => v < 100) (h.paras.sensitivity i) _ _).mpr (hsens i)
  · change (params.foldl assignPara d.para).tenValRange f k < 1000
    rw [htension]
    exact h.tension f k

theorem setThresholds_short (h : d.Short) (hup : ∀ v ∈ lastValue "THRESHOLD_UP" params, u16 v < 1000)
    (hdown : ∀ v ∈ lastValue "THRESHOLD_DOWN" params, u16 v < 1000) :
    (setThresholds params d).Short := by
  obtain ⟨hpara, hadc⟩ : (setThresholds params d).para = d.para ∧
    (setThresholds params d).adc = d.adc := by
    refine Run.foldl_inv (fun d' : Dev => d'.para = d.para ∧
      d'.adc = d.adc) (fun d' kv hd => ?_) params d ⟨rfl, rfl⟩
    simp only
    split_ifs <;> exact hd
  have hvalue : (setThresholds params d).alarm.alarmThresholdUpDif =
      ((lastValue "THRESHOLD_UP" params).map u16).getD d.alarm.alarmThresholdUpDif := by
    refine foldl_lastValue "THRESHOLD_UP" (fun d : Dev => d.alarm.alarmThresholdUpDif) u16
      (fun d kv => ?_) params d
    simp only
    split_ifs <;> rfl
  have hvalue' : (setThresholds params d).alarm.alarmThresholdDownDif =
      ((lastValue "THRESHOLD_DOWN" params).map u16).getD d.alarm.alarmThresholdDownDif := by
    refine foldl_lastValue "THRESHOLD_DOWN" (fun d : Dev => d.alarm.alarmThresholdDownDif) u16
      (fun d kv => ?_)
      params d
    simp only
    split_ifs <;> rfl
  constructor
  · rw [hpara]
    exact h.paras
  · rw [hpara]
    exact h.tension
  · rw [hvalue]
    exact (getD_iff (P := fun v => v < 1000) h.up u16 _).mpr hup
  · rw [hvalue']
    exact (getD_iff (P := fun v => v < 1000) h.down u16 _).mpr hdown
  · rw [hadc]
    exact h.zero
  · rw [hadc]
    exact h.base
  · rw [hadc]
    exact h.range

theorem setRange_short (h : d.Short)
    (hrange : ∀ v ∈ lastValue "TENSION_MAX_RANGE" params, u16 v < 10000) :
    (setRange params d).Short := by
  obtain ⟨hpara, halarm, hzero, hbase⟩ : (setRange params d).para = d.para ∧
    (setRange params d).alarm = d.alarm ∧
      (setRange params d).adc.zeroVal = d.adc.zeroVal ∧
      (setRange params d).adc.baseVal = d.adc.baseVal := by
    refine Run.foldl_inv (fun d' : Dev => d'.para = d.para ∧ d'.alarm = d.alarm ∧
      d'.adc.zeroVal = d.adc.zeroVal ∧ d'.adc.baseVal = d.adc.baseVal) (fun d' kv hd => ?_) params d
      ⟨rfl, rfl, rfl, rfl⟩
    simp only
    split_ifs <;> exact hd
  have hvalue : (setRange params d).adc.tensionMaxRange =
      ((lastValue "TENSION_MAX_RANGE" params).map u16).getD d.adc.tensionMaxRange := by
    refine foldl_lastValue "TENSION_MAX_RANGE" (fun d : Dev => d.adc.tensionMaxRange) u16
      (fun d kv => ?_) params d
    simp only
    split_ifs <;> rfl
  constructor
  · rw [hpara]
    exact h.paras
  · rw [hpara]
    exact h.tension
  · rw [halarm]
    exact h.up
  · rw [halarm]
    exact h.down
  · rw [hzero]
    exact h.zero
  · rw [hbase]
    exact h.base
  · rw [hvalue]
    exact (getD_iff (P := fun v => v < 10000) h.range u16 _).mpr hrange

theorem control_short (h : d.Short) : (Web.control params d).Short := by
  rw [Web.control]
  rcases ctrType params with _ | _ | f
  · exact h
  · exact h.fangChai _
  · exact h.push f _

/-- A loop that leaves the values short in each of its turns. -/
theorem foldl_short {op : Dev → CStr × CStr → Dev} (hop : ∀ d kv, d.Short → (op d kv).Short)
    (h : d.Short) :
    (params.foldl op d).Short :=
  Run.foldl_inv Dev.Short (fun d kv hd => hop d kv hd) params d h

theorem controlCGIHandler_short (h : d.Short) (hok : ParamsShort params) :
    (controlCGIHandler params d).1.Short := by
  rw [ParamsShort] at hok
  rw [controlCGIHandler]
  split_ifs with hnum hreset hctr hthrd hrange hzero hbase
  · rw [if_pos hnum] at hok
    exact setZonePara_short h hok.1 hok.2.1 hok.2.2
  · refine foldl_short (fun d kv hd => ?_) h
    split_ifs
    · exact hd.resetSiren 0
    · exact hd.resetSiren 1
    · exact hd
  · exact control_short h
  · rw [if_neg hnum, if_neg (not_or.mpr ⟨hreset, hctr⟩), if_pos hthrd] at hok
    exact setThresholds_short h hok.1 hok.2
  · rw [if_neg hnum, if_neg (not_or.mpr ⟨hreset, hctr⟩), if_neg hthrd, if_pos hrange] at hok
    exact setRange_short h hok
  · exact foldl_short (fun d kv hd => hd.ite fun _ => hd.request _) h
  · exact foldl_short (fun d kv hd => hd.ite fun _ => hd.request _) h
  · exact h

end Web

/-! ### Calibration -/

/-- What a calibration is about to store has room; a base value is cut off at zero. -/
def MeanShort (d : Dev) : Prop := ∀ i : Line, i < d.lineCount →
  (d.adc.calibratingFlag &&& 0x10 = 0x00 → WireOk (Int16.ofInt (d.mean i))) ∧
    (d.adc.calibratingFlag &&& 0x10 = 0x10 →
      (Int16.ofInt (d.mean i - (d.adc.zeroVal d.calibratedZone i).toInt)).toInt < 1000)

instance (d : Dev) : Decidable (MeanShort d) := by unfold MeanShort; infer_instance

section Calibration

variable {d : Dev}

theorem wireOk_clamp {v : Int16} (h : v.toInt < 1000) : WireOk (if v < 0 then 0 else v) := by
  split_ifs with hneg
  · decide
  · have hpos : 0 ≤ v.toInt := Int16.le_iff_toInt_le.mp (Int16.not_lt.mp hneg)
    exact ⟨⟨by omega, h⟩, Int.tmod_nonneg _ hpos⟩

/-- The lines in use get new values. -/
theorem wireOk_lines {old : Zone → Line → Int16} (h : ∀ f i, WireOk (old f i))
    {new : Line → Int16} {n : ℕ}
    (hnew : ∀ i : Line, i < n → WireOk (new i)) (f : Zone) :
    ∀ g i, WireOk (Function.update old f (fun i : Line => if i < n then new i else old f i) g i) := by
  refine (forall_update_iff (P := fun v : Line → Int16 => ∀ i, WireOk (v i)) h f _).mpr fun i => ?_
  split_ifs with hi
  · exact hnew i hi
  · exact h f i

theorem storeZero_short (h : d.Short) (hmean : ∀ i : Line, i < d.lineCount → WireOk (d.newZero i)) :
    d.storeZero.Short :=
  { h with zero := wireOk_lines h.zero hmean d.calibratedZone }

theorem storeBase_short (h : d.Short) (hmean : ∀ i : Line, i < d.lineCount → WireOk (d.newBase i)) :
    d.storeBase.Short :=
  { h with base := wireOk_lines h.base hmean d.calibratedZone }

theorem finish_short (h : d.Short) : d.finish.Short := { h with }

theorem calibrating_short (h : d.Short) (hok : Watched.Completing d → MeanShort d) (r : Readings) :
    (d.calibrating r).Short := by
  rw [Dev.calibrating]
  split_ifs with hff hdone h0
  · exact h
  · have hne : ¬d.storeZero.adc.calibratingFlag &&& 0x10 = 0x10 := by
      have hflag : d.storeZero.adc.calibratingFlag = d.adc.calibratingFlag := rfl
      rw [hflag, h0]
      decide
    simp only [if_neg hne]
    exact finish_short (storeZero_short h fun i hi => (hok ⟨hff, hdone⟩ i hi).1 h0)
  · refine finish_short (h.ite fun h1 => ?_)
    exact storeBase_short h fun i hi => wireOk_clamp ((hok ⟨hff, hdone⟩ i hi).2 h1)
  · exact { h with }

theorem tim4_short {s : Calib} (h : s.dev.Short) : s.tim4IRQHandler.dev.Short := by
  have hcalibrate : s.tim4Calibrate.dev.Short := by
    rw [Calib.tim4Calibrate]
    split_ifs <;> exact { h with }
  rw [Calib.tim4IRQHandler, Calib.tim4Check]
  split_ifs <;> exact { hcalibrate with }

theorem calib_short {s : Calib} (h : s.dev.Short) {op : Calib.Op}
    (hok : ∀ r, op = .calibrating r → Watched.Completing s.dev → MeanShort s.dev) :
    (s.step op).dev.Short := by
  cases op with
  | updateZeroVal f => exact h.request _
  | updateBaseVal f => exact h.request _
  | tim4 => exact tim4_short h
  | calibrating r => exact calibrating_short h (hok r rfl) r

end Calibration

end VectorFence
