import VectorFence.Device
import VectorFence.Lib.Run

/-! Calibration of a zone's zero or base values. A request overwrites `calibrating_flag`; TIM4
    counts five seconds in steps of 10 µs and then sets bit 7; `calibrating` adds up samples until
    it finds the bit, and stores their mean:

        0xFF ──request──▶ 0x00, 0x01, 0x10, 0x11 ──500000 ticks──▶ 0x80 … 0x91 ──calibrating──▶ 0xFF
                                  └──calibrating: one more sample

    Sums and count are cleared when a calibration ends, not when one is requested. `Watched` keeps a
    record of the last request and of the samples since then beside the variables. -/

namespace VectorFence

def aAdcZeroAddr : ℕ := 0x0020
def aAdcBaseAddr : ℕ := 0x0020 + 24

namespace Dev

/-- `line_count`. -/
def lineCount (d : Dev) : ℕ := d.alarm.w4W6.lineCount

def updateZeroVal (f : Zone) (d : Dev) : Dev := { d with adc := d.adc.updateZeroVal f }

def updateBaseVal (f : Zone) (d : Dev) : Dev := { d with adc := d.adc.updateBaseVal f }

/-- The bytes of six `s16` in memory. -/
def lineBytes (v : Line → Int16) : List UInt8 :=
  (List.finRange 6).flatMap fun i => [(v i).toUInt16.toUInt8, ((v i).toUInt16 >>> 8).toUInt8]

def writeAdcZeroToEEProm (f : Zone) (d : Dev) : Dev :=
  { d with mem := d.mem.at24cxxWrite (aAdcZeroAddr + 12 * f) (lineBytes (d.adc.zeroVal f)) }

def writeAdcBaseToEEProm (f : Zone) (d : Dev) : Dev :=
  { d with mem := d.mem.at24cxxWrite (aAdcBaseAddr + 12 * f) (lineBytes (d.adc.baseVal f)) }

/-- `field_index` of a calibration. -/
def calibratedZone (d : Dev) : Zone := if d.adc.calibratingFlag &&& 0x01 = 0 then 0 else 1

/-- `calibrate_temp_val[i] / calibrate_adc_cnt`. -/
def mean (d : Dev) (i : Line) : ℤ := (d.adc.calibrateTempVal i).tdiv d.adc.calibrateAdcCnt.toNat

/-- The new zero value of a line. -/
def newZero (d : Dev) (i : Line) : Int16 := Int16.ofInt (d.mean i)

/-- The new base value of a line, which is not negative. -/
def newBase (d : Dev) (i : Line) : Int16 :=
  let v := Int16.ofInt (d.mean i - (d.adc.zeroVal d.calibratedZone i).toInt)
  if v < 0 then 0 else v

def storeZero (d : Dev) : Dev :=
  let f := d.calibratedZone
  let vals := fun i : Line => if i < d.lineCount then d.newZero i else d.adc.zeroVal f i
  writeAdcZeroToEEProm f
    { d with adc := { d.adc with zeroVal := Function.update d.adc.zeroVal f vals } }

def storeBase (d : Dev) : Dev :=
  let f := d.calibratedZone
  let vals := fun i : Line => if i < d.lineCount then d.newBase i else d.adc.baseVal f i
  writeAdcBaseToEEProm f
    { d with adc := { d.adc with baseVal := Function.update d.adc.baseVal f vals } }

/-- Sums, count and flag at the end of a calibration. -/
def finish (d : Dev) : Dev :=
  { d with
    adc := { d.adc with
      calibrateAdcCnt := 0
      calibrateTempVal := fun _ => 0
      calibratingFlag := 0xFF } }

/-- One more sample of the zone. -/
def accumulate (r : Readings) (d : Dev) : Dev :=
  let f := d.calibratedZone
  let adc := d.adc.sampleAdc d.alarm.w4W6 r f 0
  { d with
    adc := { adc with
      calibrateTempVal := fun i =>
        if i < d.lineCount then s32 (adc.calibrateTempVal i + (adc.crtSmp f i).toInt)
        else adc.calibrateTempVal i
      calibrateAdcCnt := adc.calibrateAdcCnt + 1 } }

def calibrating (r : Readings) (d : Dev) : Dev :=
  if d.adc.calibratingFlag = 0xFF then d
  else if d.adc.calibratingFlag &&& 0x80 = 0x80 then
    let d := if d.adc.calibratingFlag &&& 0x10 = 0x00 then d.storeZero else d
    let d := if d.adc.calibratingFlag &&& 0x10 = 0x10 then d.storeBase else d
    d.finish
  else d.accumulate r

end Dev

/-- The device with the variables of TIM4. -/
structure Calib where
  dev : Dev
  adcCalibrateCnt : ℤ
  alarmCheckCnt : ℤ

namespace Calib

/-- `SET_VAR_BIT(timerHandlerFlag, bit)`. -/
def setVarBit (bit : ℕ) (s : Calib) : Calib :=
  { s with
    dev := { s.dev with
      timer := { s.dev.timer with
        timerHandlerFlag := s.dev.timer.timerHandlerFlag ||| BitVec.twoPow 8 bit } } }

/-- `calibrating_flag |= 0x80`. -/
def setDone (s : Calib) : Calib :=
  { s with
    dev := { s.dev with
      adc := { s.dev.adc with calibratingFlag := s.dev.adc.calibratingFlag ||| 0x80 } } }

/-- The part of `TIM4_IRQHandler` that counts the time of a calibration; the mask is `80`, not
    `0x80`. -/
def tim4Calibrate (s : Calib) : Calib :=
  if s.dev.adc.calibratingFlag ≠ 0xFF ∧ s.dev.adc.calibratingFlag &&& 80 ≠ 0x80 then
    let s :=
      if s.adcCalibrateCnt ≥ calibratingTime * 100 then { s.setDone with adcCalibrateCnt := 0 }
      else if s.adcCalibrateCnt % 500 = 0 then s.setVarBit 2
      else s
    { s with adcCalibrateCnt := s.adcCalibrateCnt + 1 }
  else s

/-- The part of `TIM4_IRQHandler` that makes the main loop check the zones in turn. -/
def tim4Check (s : Calib) : Calib :=
  let s :=
    if s.alarmCheckCnt = 0 then s.setVarBit 0
    else if s.alarmCheckCnt = 25000 then s.setVarBit 1
    else if s.alarmCheckCnt = 49999 then { s with alarmCheckCnt := -1 }
    else s
  { s with alarmCheckCnt := s.alarmCheckCnt + 1 }

def tim4IRQHandler (s : Calib) : Calib := s.tim4Calibrate.tim4Check

/-- A change of the device proper. -/
def onDev (op : Dev → Dev) (s : Calib) : Calib := { s with dev := op s.dev }

inductive Op where
  | updateZeroVal (f : Zone)
  | updateBaseVal (f : Zone)
  | tim4
  | calibrating (r : Readings)

def step (s : Calib) : Op → Calib
  | .updateZeroVal f => s.onDev (Dev.updateZeroVal f)
  | .updateBaseVal f => s.onDev (Dev.updateBaseVal f)
  | .tim4 => s.tim4IRQHandler
  | .calibrating r => s.onDev (Dev.calibrating r)

/-- A device after its start, with no calibration running; all else is arbitrary. -/
def start (d : Dev) : Calib := ⟨d.finish, 0, 0⟩

end Calib

/-- What a calibration is asked for. -/
inductive Target where | zero | base
  deriving DecidableEq, Repr

/-- `calibrating_flag` after a request. -/
def Target.code : Target → Zone → UInt8
  | .zero, f => 0x00 ||| UInt8.ofNat f
  | .base, f => 0x10 ||| UInt8.ofNat f

/-- The variables with a record of the last request, and of what `crt_smp` was after each of the samples
    that `calibrating` has taken since then. -/
structure Watched where
  calib : Calib
  asked : Option (Target × Zone)
  samples : List (Zone → Line → Int16)

namespace Watched

open Calib (Op)

abbrev dev (w : Watched) : Dev := w.calib.dev

/-- `calibrating` would take a sample. -/
def Sampling (d : Dev) : Prop := d.adc.calibratingFlag ≠ 0xFF ∧ d.adc.calibratingFlag &&& 0x80 ≠ 0x80

instance (d : Dev) : Decidable (Sampling d) := by unfold Sampling; infer_instance

/-- `calibrating` would store its result. -/
def Completing (d : Dev) : Prop := d.adc.calibratingFlag ≠ 0xFF ∧ d.adc.calibratingFlag &&& 0x80 = 0x80

instance (d : Dev) : Decidable (Completing d) := by unfold Completing; infer_instance

def step (w : Watched) (op : Op) : Watched :=
  let after := w.calib.step op
  match op with
  | .updateZeroVal f => ⟨after, some (.zero, f), []⟩
  | .updateBaseVal f => ⟨after, some (.base, f), []⟩
  | .tim4 => ⟨after, w.asked, w.samples⟩
  | .calibrating _ =>
    ⟨after, w.asked, if Sampling w.dev then w.samples ++ [after.dev.adc.crtSmp] else w.samples⟩

def start (d : Dev) : Watched := ⟨Calib.start d, none, []⟩

/-- The sum of a line's samples. -/
def sum (w : Watched) (f : Zone) (i : Line) : ℤ := (w.samples.map fun smp => (smp f i).toInt).sum

/-- The truncated average of a line's samples. -/
def average (w : Watched) (f : Zone) (i : Line) : ℤ := (w.sum f i).tdiv w.samples.length

/-- What a calibration has to store for a line. -/
def result (w : Watched) (f : Zone) (i : Line) : Target → ℤ
  | .zero => w.average f i
  | .base => max 0 (w.average f i - (w.dev.adc.zeroVal f i).toInt)

/-- What it stores. -/
def stored (d : Dev) (f : Zone) (i : Line) : Target → ℤ
  | .zero => (d.adc.zeroVal f i).toInt
  | .base => (d.adc.baseVal f i).toInt

/-- When the step completes a calibration, it stores the average of the samples taken since the
    request it carries out, of which there is one at least. -/
def OwnAverage (w : Watched) (op : Op) : Prop :=
  ∀ r, op = .calibrating r → Completing w.dev →
    w.samples ≠ [] ∧ ∃ t f, w.asked = some (t, f) ∧
      ∀ i : Line, i < w.dev.lineCount → stored (w.step op).dev f i t = w.result f i t

/-- The sums and the count are those of the samples since the request; without one there are none. -/
def Accounted (w : Watched) : Prop :=
  (w.dev.adc.calibratingFlag = 0xFF ∧ w.dev.adc.calibrateAdcCnt = 0 ∧
      w.dev.adc.calibrateTempVal = fun _ => 0) ∨
    ∃ t f, w.asked = some (t, f) ∧
      (w.dev.adc.calibratingFlag = t.code f ∨ w.dev.adc.calibratingFlag = t.code f ||| 0x80) ∧
      w.dev.adc.calibrateAdcCnt.toNat = w.samples.length ∧
      ∀ i : Line, i < w.dev.lineCount → w.dev.adc.calibrateTempVal i = w.sum f i

/-- The step does not go wrong: a request finds no samples, a sample can be counted, and at the end
    there are samples and the difference for a base value fits into an `s16`. -/
def Clean (d : Dev) : Op → Prop
  | .updateZeroVal _ | .updateBaseVal _ => d.adc.calibrateAdcCnt = 0
  | .tim4 => True
  | .calibrating _ =>
    (Sampling d → d.adc.calibrateAdcCnt ≠ 0xFFFF) ∧
      (Completing d → d.adc.calibrateAdcCnt ≠ 0 ∧
        (d.adc.calibratingFlag &&& 0x10 = 0x10 → ∀ i : Line, i < d.lineCount →
          -0x8000 ≤ d.mean i - (d.adc.zeroVal d.calibratedZone i).toInt ∧
            d.mean i - (d.adc.zeroVal d.calibratedZone i).toInt < 0x8000))

/-! ### The flag -/

theorem code_bits (t : Target) (f : Zone) :
    t.code f ≠ 0xFF ∧ t.code f &&& 0x80 ≠ 0x80 ∧ t.code f ||| 0x80 ≠ 0xFF ∧
      (t.code f ||| 0x80) &&& 0x80 = 0x80 := by
  cases t <;> revert f <;> decide

theorem code_zone (t : Target) (f : Zone) :
    ((t.code f &&& 0x01 = 0) ↔ f = 0) ∧ ((t.code f ||| 0x80) &&& 0x01 = 0 ↔ f = 0) := by
  cases t <;> revert f <;> decide

theorem code_target (t : Target) (f : Zone) :
    ((t.code f ||| 0x80) &&& 0x10 = 0x00 ↔ t = .zero) ∧
      ((t.code f ||| 0x80) &&& 0x10 = 0x10 ↔ t = .base) := by
  cases t <;> revert f <;> decide

theorem zone_of_code {d : Dev} {t : Target} {f : Zone}
    (h : d.adc.calibratingFlag = t.code f ∨ d.adc.calibratingFlag = t.code f ||| 0x80) :
    d.calibratedZone = f := by
  have hz : d.adc.calibratingFlag &&& 0x01 = 0 ↔ f = 0 := by
    rcases h with h | h
    · rw [h]; exact (code_zone t f).1
    · rw [h]; exact (code_zone t f).2
  rw [Dev.calibratedZone]
  split_ifs with h0
  · exact (hz.mp h0).symm
  · exact (Fin.eq_one_of_ne_zero f fun hf => h0 (hz.mpr hf)).symm

/-! ### Ticks -/

theorem tim4Check_eq (s : Calib) : s.tim4Check.dev.adc = s.dev.adc ∧
    s.tim4Check.dev.alarm = s.dev.alarm ∧ s.tim4Check.adcCalibrateCnt = s.adcCalibrateCnt := by
  rw [Calib.tim4Check]
  split_ifs <;> exact ⟨rfl, rfl, rfl⟩

/-- What a tick can do to a calibration: nothing, or set bit 7. -/
theorem tim4_cases (s : Calib) :
    (s.tim4IRQHandler.dev.adc = s.dev.adc ∨ s.dev.adc.calibratingFlag ≠ 0xFF ∧
      s.tim4IRQHandler.dev.adc =
        { s.dev.adc with calibratingFlag := s.dev.adc.calibratingFlag ||| 0x80 }) ∧
    s.tim4IRQHandler.dev.alarm = s.dev.alarm := by
  rw [Calib.tim4IRQHandler, (tim4Check_eq _).1, (tim4Check_eq _).2.1, Calib.tim4Calibrate]
  split_ifs with h
  · exact ⟨Or.inr ⟨h.1, rfl⟩, rfl⟩
  · exact ⟨Or.inl rfl, rfl⟩
  · exact ⟨Or.inl rfl, rfl⟩
  · exact ⟨Or.inl rfl, rfl⟩

/-! ### Samples -/

/-- A sum of 16-bit samples. -/
theorem sum_bounds (l : List Int16) :
    -0x8000 * (l.length : ℤ) ≤
    (l.map Int16.toInt).sum ∧ (l.map Int16.toInt).sum ≤ 0x7FFF * l.length := by
  induction l with
  | nil => simp
  | cons v l ih =>
    have h1 := v.toInt_lt
    have h2 := v.le_toInt
    rw [List.map_cons, List.sum_cons, List.length_cons]
    push_cast
    constructor <;> omega

/-- Up to 65535 samples the sum fits into an `s32`. -/
theorem s32_of_bounds {x : ℤ} {n : ℕ} (hn : n < 0x10000) (h : -0x8000 * (n : ℤ) ≤ x)
    (h' : x ≤ 0x7FFF * n) :
    s32 x = x := by
  rw [s32, Int.bmod_eq_of_le (by omega) (by omega)]

/-- The mean of 16-bit samples fits into 16 bits. -/
theorem tdiv_bounds {x : ℤ} {n : ℕ} (hn : n ≠ 0) (h : -0x8000 * (n : ℤ) ≤ x) (h' : x ≤ 0x7FFF * n) :
    -0x8000 ≤ x.tdiv n ∧ x.tdiv n ≤ 0x7FFF := by
  have hpos : (0 : ℤ) < n := by omega
  constructor
  · exact Int.le_tdiv_of_mul_le hpos h
  · calc x.tdiv n ≤ (0x7FFF * (n : ℤ)).tdiv n := Int.tdiv_le_tdiv hpos h'
      _ = 0x7FFF := Int.mul_tdiv_cancel _ (by omega)

/-- A difference that fits into an `s16`, cut off at zero. -/
theorem toInt_clamp {x : ℤ} (h : -0x8000 ≤ x) (h' : x < 0x8000) :
    (if Int16.ofInt x < 0 then 0 else Int16.ofInt x).toInt = max 0 x := by
  have hx : (Int16.ofInt x).toInt = x := Int16.toInt_ofInt_of_le h h'
  have hlt : Int16.ofInt x < 0 ↔ x < 0 := by rw [Int16.lt_iff_toInt_lt, hx]; rfl
  split_ifs with hneg
  · rw [max_eq_left (hlt.mp hneg).le]
    rfl
  · rw [hx, max_eq_right (not_lt.mp fun hc => hneg (hlt.mpr hc))]

theorem sum_append (w : Watched) (smp : Zone → Line → Int16) (f : Zone) (i : Line) (c : Calib) :
    sum ⟨c, w.asked, w.samples ++ [smp]⟩ f i = w.sum f i + (smp f i).toInt := by
  simp [sum]

theorem sum_range (w : Watched) (f : Zone) (i : Line) :
    -0x8000 * (w.samples.length : ℤ) ≤ w.sum f i ∧ w.sum f i ≤ 0x7FFF * w.samples.length := by
  have h := sum_bounds (w.samples.map fun smp => smp f i)
  rwa [List.map_map, List.length_map] at h

/-! ### Steps -/

variable {w : Watched}

theorem calibrating_sampling {d : Dev} (h : Sampling d) (r : Readings) :
    d.calibrating r = d.accumulate r := by
  rw [Dev.calibrating, if_neg h.1, if_neg h.2]

/-- The end of a calibration. -/
theorem calibrating_completing {d : Dev} {t : Target} {f : Zone}
    (h : d.adc.calibratingFlag = t.code f ||| 0x80) (r : Readings) :
    d.calibrating r =
      (match t with
        | .zero => d.storeZero
        | .base => d.storeBase).finish := by
  obtain ⟨-, -, hff, h80⟩ := code_bits t f
  obtain ⟨hz, hb⟩ := code_target t f
  have h10 : d.storeZero.adc.calibratingFlag = d.adc.calibratingFlag := rfl
  rw [Dev.calibrating, if_neg (by rw [h]; exact hff), if_pos (by rw [h]; exact h80)]
  cases t with
  | zero =>
    have hn : ¬d.storeZero.adc.calibratingFlag &&& 0x10 = 0x10 := by
      rw [h10, h, hb]
      decide
    rw [if_pos (by rw [h]; exact hz.mpr rfl)]
    exact congrArg Dev.finish (if_neg hn)
  | base =>
    have hn : ¬d.adc.calibratingFlag &&& 0x10 = 0x00 := by
      rw [h, hz]
      decide
    rw [if_neg hn]
    exact congrArg Dev.finish (if_pos (by rw [h]; exact hb.mpr rfl))

theorem finish_storeZero {d : Dev} {f : Zone} {i : Line} (hf : d.calibratedZone = f)
    (hi : i < d.lineCount) : d.storeZero.finish.adc.zeroVal f i = d.newZero i := by
  simp [Dev.finish, Dev.storeZero, Dev.writeAdcZeroToEEProm, hf, hi]

theorem finish_storeBase {d : Dev} {f : Zone} {i : Line} (hf : d.calibratedZone = f)
    (hi : i < d.lineCount) : d.storeBase.finish.adc.baseVal f i = d.newBase i := by
  simp [Dev.finish, Dev.storeBase, Dev.writeAdcBaseToEEProm, hf, hi]

/-- A request finds nothing to clear. -/
theorem accounted_request {s : Calib} {t : Target} {f : Zone} (h : Accounted w)
    (hcnt : w.dev.adc.calibrateAdcCnt = 0)
    (hs : s.dev.adc = { w.dev.adc with calibratingFlag := t.code f })
    (hlines : s.dev.lineCount = w.dev.lineCount) : Accounted ⟨s, some (t, f), []⟩ := by
  refine Or.inr ⟨t, f, rfl, Or.inl (by rw [dev, hs]), by simp [dev, hs, hcnt], ?_⟩
  intro i hi
  simp only [dev, hs, hlines] at hi ⊢
  rcases h with ⟨-, -, hsum⟩ | ⟨t', f', -, -, hlen, hsum⟩
  · simp [hsum, sum]
  · -- there were no samples either
    have hnil : w.samples = [] := by
      rw [hcnt] at hlen
      exact List.length_eq_zero_iff.mp hlen.symm
    simp [hsum i hi, sum, hnil]

theorem accounted_tim4 (h : Accounted w) :
    Accounted ⟨w.calib.tim4IRQHandler, w.asked, w.samples⟩ := by
  obtain ⟨hadc, halarm⟩ := tim4_cases w.calib
  have hlines : w.calib.tim4IRQHandler.dev.lineCount = w.dev.lineCount := by
    rw [Dev.lineCount, halarm, Dev.lineCount]
  rcases hadc with hadc | ⟨hff, hadc⟩
  · simp only [Accounted, dev, hadc, hlines]
    exact h
  · simp only [Accounted, dev, hadc, hlines]
    rcases h with h | ⟨t, f, hask, hflag, hcnt, hsum⟩
    · exact absurd h.1 hff
    · refine Or.inr ⟨t, f, hask, Or.inr ?_, hcnt, hsum⟩
      rcases hflag with hflag | hflag
      · rw [hflag]
      · rw [hflag, UInt8.or_assoc, UInt8.or_self]

/-- One more sample is counted. -/
theorem accounted_accumulate {s : Calib} (r : Readings) (h : Accounted w) (hsmp : Sampling w.dev)
    (hcnt : w.dev.adc.calibrateAdcCnt ≠ 0xFFFF) (hs : s.dev = w.dev.accumulate r) :
    Accounted ⟨s, w.asked, w.samples ++ [(w.dev.accumulate r).adc.crtSmp]⟩ := by
  rcases h with h | ⟨t, f, hask, hflag, hlen, hsum⟩
  · exact absurd h.1 hsmp.1
  · have hlt : w.samples.length + 1 < 0x10000 := by
      have hne : w.dev.adc.calibrateAdcCnt.toNat ≠ 0xFFFF := fun hc => hcnt (UInt16.toNat_inj.mp hc)
      have hnat := w.dev.adc.calibrateAdcCnt.toNat_lt
      omega
    have hzone := zone_of_code hflag
    have hdev : dev ⟨s, w.asked, w.samples ++ [(w.dev.accumulate r).adc.crtSmp]⟩ =
      w.dev.accumulate r := hs
    rw [Accounted, hdev]
    refine Or.inr ⟨t, f, hask, hflag, ?_, ?_⟩
    · have hcount : (w.dev.accumulate r).adc.calibrateAdcCnt = w.dev.adc.calibrateAdcCnt + 1 := rfl
      rw [hcount, UInt16.toNat_add, hlen, List.length_append, List.length_singleton]
      exact Nat.mod_eq_of_lt hlt
    · intro i hi
      have hadd : (w.dev.accumulate r).adc.calibrateTempVal i =
          s32 (w.dev.adc.calibrateTempVal i + ((w.dev.accumulate r).adc.crtSmp f i).toInt) := by
        rw [← hzone]
        exact if_pos hi
      have hrange := sum_range ⟨s, w.asked, w.samples ++ [(w.dev.accumulate r).adc.crtSmp]⟩ f i
      rw [sum_append, List.length_append, List.length_singleton] at hrange
      rw [hadd, hsum i hi, sum_append, s32_of_bounds hlt hrange.1 hrange.2]

theorem accounted_step (op : Op) (h : Accounted w) (hok : Clean w.dev op) : Accounted (w.step op) := by
  cases op with
  | updateZeroVal f => exact accounted_request h hok rfl rfl
  | updateBaseVal f => exact accounted_request h hok rfl rfl
  | tim4 => exact accounted_tim4 h
  | calibrating r =>
    by_cases hsmp : Sampling w.dev
    · have hstep : w.step (.calibrating r) = ⟨w.calib.onDev (Dev.accumulate r), w.asked,
          w.samples ++ [(w.dev.accumulate r).adc.crtSmp]⟩ := by
        simp only [step, Calib.step, Calib.onDev, if_pos hsmp]
        rw [calibrating_sampling hsmp]
      rw [hstep]
      exact accounted_accumulate r h hsmp (hok.1 hsmp) rfl
    · have hdev : (w.step (.calibrating r)).dev = w.dev.calibrating r := rfl
      rcases h with h | ⟨t, f, hask, hflag, hlen, hsum⟩
      · refine Or.inl ?_
        rw [hdev, Dev.calibrating, if_pos h.1]
        exact h
      · obtain ⟨hff, h80, -⟩ := code_bits t f
        rcases hflag with hflag | hflag
        · have hnow : Sampling w.dev := by
            rw [Sampling, hflag]
            exact ⟨hff, h80⟩
          exact absurd hnow hsmp
        · refine Or.inl ?_
          rw [hdev, calibrating_completing hflag]
          exact ⟨rfl, rfl, rfl⟩

/-- A calibration that ends stores the average of its own samples. -/
theorem ownAverage_step (op : Op) (h : Accounted w) (hok : Clean w.dev op) : OwnAverage w op := by
  rintro r rfl hcomp
  obtain ⟨hcnt, hfits⟩ := hok.2 hcomp
  rcases h with h | ⟨t, f, hask, hflag, hlen, hsum⟩
  · exact absurd h.1 hcomp.1
  have hzone := zone_of_code hflag
  have hflag : w.dev.adc.calibratingFlag = t.code f ||| 0x80 := by
    rcases hflag with hflag | hflag
    · exact absurd (hflag ▸ hcomp.2) (code_bits t f).2.1
    · exact hflag
  have hne : w.samples.length ≠ 0 := by
    rw [← hlen]
    exact fun hc => hcnt (UInt16.toNat_inj.mp hc)
  have hmean (i : Line) (hi : i < w.dev.lineCount) : w.dev.mean i = w.average f i := by
    rw [Dev.mean, average, hsum i hi, hlen]
  refine ⟨List.length_pos_iff.mp (by omega), t, f, hask, ?_⟩
  intro i hi
  have hdev : (w.step (.calibrating r)).dev = w.dev.calibrating r := rfl
  rw [hdev, calibrating_completing hflag]
  cases t with
  | zero =>
    have hb := tdiv_bounds hne (sum_range w f i).1 (sum_range w f i).2
    rw [← average] at hb
    simp only [stored, result]
    rw [finish_storeZero hzone hi, Dev.newZero, hmean i hi]
    exact Int16.toInt_ofInt_of_le hb.1 (by omega)
  | base =>
    have hb := hfits (by rw [hflag]; exact (code_target .base f).2.mpr rfl) i hi
    rw [hzone, hmean i hi] at hb
    simp only [stored, result]
    rw [finish_storeBase hzone hi, Dev.newBase, hzone, hmean i hi]
    exact toInt_clamp hb.1 hb.2

theorem start_accounted (d : Dev) : Accounted (start d) := Or.inl ⟨rfl, rfl, rfl⟩

/-- In a run without a wrong step every calibration stores the average of its own samples. -/
theorem run_ownAverage (d : Dev) (ops : List Op)
    (hclean : ∀ p ∈ Run.steps step (start d) ops, Clean p.1.dev p.2) :
    ∀ p ∈ Run.steps step (start d) ops, OwnAverage p.1 p.2 := by
  have hinv : ∀ p ∈ Run.steps step (start d) ops, Accounted p.1 :=
    Run.steps_inv_of_steps Accounted (fun w op h hok => accounted_step op h hok) ops _
      (start_accounted d) hclean
  intro p hp
  exact ownAverage_step p.2 (hinv p hp) (hclean p hp)

/-! ### Five seconds -/

/-- The mask of the handler does not contain bit 7. -/
theorem and_80_ne (x : UInt8) : x &&& 80 ≠ 0x80 := by
  intro h
  have h' : (x &&& 80) &&& 0x80 = 0x80 := by rw [h]; decide
  rw [UInt8.and_assoc] at h'
  have hz : (80 : UInt8) &&& 0x80 = 0 := by decide
  rw [hz, UInt8.and_zero] at h'
  exact absurd h' (by decide)

/-- Before the time is up a tick counts. -/
theorem tim4_waits {s : Calib} (hff : s.dev.adc.calibratingFlag ≠ 0xFF)
    (h : s.adcCalibrateCnt < 500000) :
    s.tim4IRQHandler.dev.adc = s.dev.adc ∧
    s.tim4IRQHandler.adcCalibrateCnt = s.adcCalibrateCnt + 1 := by
  have hlt : ¬s.adcCalibrateCnt ≥ calibratingTime * 100 := by
    rw [calibratingTime]
    omega
  rw [Calib.tim4IRQHandler, (tim4Check_eq _).1, (tim4Check_eq _).2.2, Calib.tim4Calibrate,
    if_pos ⟨hff, and_80_ne _⟩, if_neg hlt]
  split_ifs <;> exact ⟨rfl, rfl⟩

/-- When the time is up a tick sets bit 7. -/
theorem tim4_ends {s : Calib} (hff : s.dev.adc.calibratingFlag ≠ 0xFF)
    (h : s.adcCalibrateCnt = 500000) :
    s.tim4IRQHandler.dev.adc =
      { s.dev.adc with calibratingFlag := s.dev.adc.calibratingFlag ||| 0x80 } := by
  have hge : s.adcCalibrateCnt ≥ calibratingTime * 100 := by
    rw [calibratingTime]
    omega
  rw [Calib.tim4IRQHandler, (tim4Check_eq _).1, Calib.tim4Calibrate, if_pos ⟨hff, and_80_ne _⟩,
    if_pos hge]
  rfl

theorem ticks (n : ℕ) (w : Watched) (hff : w.dev.adc.calibratingFlag ≠ 0xFF)
    (h : w.calib.adcCalibrateCnt + n ≤ 500000) :
    let w' := (List.replicate n Op.tim4).foldl step w
    w'.dev.adc = w.dev.adc ∧ w'.calib.adcCalibrateCnt = w.calib.adcCalibrateCnt + n ∧
      w'.asked = w.asked ∧ w'.samples = w.samples := by
  induction n generalizing w with
  | zero => simp
  | succ n ih =>
    push_cast at h
    obtain ⟨hadc, hcnt⟩ := tim4_waits hff (by omega)
    have hstep : (step w .tim4).calib = w.calib.tim4IRQHandler := rfl
    have hdev : (step w .tim4).dev = w.calib.tim4IRQHandler.dev := rfl
    obtain ⟨h1, h2, h3, h4⟩ := ih (step w .tim4) (by rwa [hdev, hadc]) (by rw [hstep, hcnt]; omega)
    rw [List.replicate_succ, List.foldl_cons]
    refine ⟨h1.trans hadc, ?_, h3, h4⟩
    rw [h2, hstep, hcnt]
    push_cast
    omega

theorem ticks_end (n : ℕ) (w : Watched) (hff : w.dev.adc.calibratingFlag ≠ 0xFF)
    (h : w.calib.adcCalibrateCnt + n = 500000) :
    let w' := (List.replicate (n + 1) Op.tim4).foldl step w
    w'.dev.adc = { w.dev.adc with calibratingFlag := w.dev.adc.calibratingFlag ||| 0x80 } ∧
      w'.asked = w.asked ∧ w'.samples = w.samples := by
  obtain ⟨hadc, hcnt, hask, hsmp⟩ := ticks n w hff (by omega)
  rw [List.replicate_succ', List.foldl_append]
  have hend := tim4_ends (s := ((List.replicate n Op.tim4).foldl step w).calib)
    (by rwa [hadc]) (by rw [hcnt, h])
  rw [hadc] at hend
  exact ⟨hend, hask, hsmp⟩

/-- The ticks of a calibration that begins with a cleared counter. -/
@[irreducible] def fiveSeconds : List Op := List.replicate (500000 + 1) .tim4

theorem foldl_fiveSeconds {w : Watched} (hff : w.dev.adc.calibratingFlag ≠ 0xFF)
    (h : w.calib.adcCalibrateCnt = 0) :
    let w' := fiveSeconds.foldl step w
    w'.dev.adc = { w.dev.adc with calibratingFlag := w.dev.adc.calibratingFlag ||| 0x80 } ∧
      w'.asked = w.asked ∧ w'.samples = w.samples := by
  have hcnt : w.calib.adcCalibrateCnt + (500000 : ℕ) = 500000 := by
    rw [h]
    omega
  rw [fiveSeconds]
  exact ticks_end 500000 w hff hcnt

/-! ### Two runs -/

/-- The same reading on every line. -/
def level (v : ℕ) : Readings := fun _ _ => v

/-- A zero calibration of zone A with one sample, left alone. -/
def undisturbed : List Op :=
  [.updateZeroVal 0, .calibrating (level 2048)] ++ fiveSeconds ++ [.calibrating (level 2048)]

/-- A zero calibration of zone A that a request for zone B interrupts after a sample. -/
def interrupted : List Op :=
  [.updateZeroVal 0, .calibrating (level 2048), .updateZeroVal 1, .calibrating (level 0)] ++
    fiveSeconds ++
    [.calibrating (level 0)]

theorem clean_fiveSeconds (w : Watched) :
    ∀ p ∈ Run.steps step w fiveSeconds, Clean p.1.dev p.2 := by
  intro p hp
  have hop := Run.snd_mem_of_mem_steps hp
  rw [fiveSeconds] at hop
  rw [List.eq_of_mem_replicate hop]
  exact True.intro

/-- Five seconds after the operations `ops` the flag has bit 7, and nothing else has changed. -/
theorem foldl_append_fiveSeconds (d : Dev) (ops : List Op) {w : Watched}
    (hw : ops.foldl step (start d) = w) (hff : w.dev.adc.calibratingFlag ≠ 0xFF)
    (h : w.calib.adcCalibrateCnt = 0) : ∃ v, (ops ++ fiveSeconds).foldl step (start d) = v ∧
      v.dev.adc = { w.dev.adc with calibratingFlag := w.dev.adc.calibratingFlag ||| 0x80 } ∧
      v.asked = w.asked ∧ v.samples = w.samples := by
  refine ⟨_, rfl, ?_⟩
  rw [List.foldl_append, hw]
  exact foldl_fiveSeconds hff h

theorem run_ownAverage_undisturbed :
    (∀ p ∈ Run.steps step (start Dev.blank) undisturbed, Clean p.1.dev p.2) ∧
    ∀ p ∈ Run.steps step (start Dev.blank) undisturbed, OwnAverage p.1 p.2 := by
  refine (and_iff_left_of_imp (run_ownAverage Dev.blank undisturbed)).mpr ?_
  obtain ⟨v, hv, hadc, -⟩ := foldl_append_fiveSeconds Dev.blank
    [.updateZeroVal 0, .calibrating (level 2048)] rfl (by decide) rfl
  rw [undisturbed, Run.steps_append, hv, Run.steps_append, List.forall_mem_append,
    List.forall_mem_append]
  refine ⟨⟨?_, clean_fiveSeconds _⟩, ?_⟩
  · simp only [Run.steps, List.forall_mem_cons]
    exact ⟨rfl, ⟨fun _ => by decide, fun h => absurd h (by decide)⟩, by simp⟩
  · simp only [Run.steps, List.forall_mem_singleton, Clean, Sampling, Completing, hadc]
    exact ⟨fun h => absurd h (by decide), fun _ => ⟨by decide, fun h => absurd h (by decide)⟩⟩

/-- The zero value of zone B becomes the mean of a sample of each zone. -/
theorem not_run_ownAverage : ¬ ∀ (d : Dev) (ops : List Op),
    ∀ p ∈ Run.steps step (start d) ops, OwnAverage p.1 p.2 := by
  intro h
  obtain ⟨v, hv, hadc, hask, hsmp⟩ := foldl_append_fiveSeconds Dev.blank
    [.updateZeroVal 0, .calibrating (level 2048), .updateZeroVal 1, .calibrating (level 0)]
    rfl (by decide) rfl
  have hlast := h Dev.blank interrupted (v, .calibrating (level 0)) (by
    rw [interrupted, Run.steps_append, hv]
    simp [Run.steps])
  obtain ⟨-, t, f, hask', hval⟩ := hlast (level 0) rfl
    ⟨by rw [hadc]; decide, by rw [hadc]; decide⟩
  have htf : some (Target.zero, (1 : Zone)) = some (t, f) := hask.symm.trans hask'
  rw [Option.some.injEq, Prod.mk.injEq] at htf
  obtain ⟨rfl, rfl⟩ := htf
  -- 100 from zone A and 0 from zone B make 50; zone B alone makes 0
  have hmean : v.dev.mean 0 = 50 := by
    rw [Dev.mean, hadc]
    decide +kernel
  have havg : v.result 1 0 .zero = 0 := by
    rw [result, average, sum, hsmp]
    decide +kernel
  have hlines (d : Dev) : 0 < d.lineCount := by
    rw [Dev.lineCount]
    cases d.alarm.w4W6 <;> decide
  have hstored : stored (v.step (.calibrating (level 0))).dev 1 0 .zero = 50 := by
    have hflag : v.dev.adc.calibratingFlag = Target.zero.code 1 ||| 0x80 := by rw [hadc]; rfl
    have hdev : (v.step (.calibrating (level 0))).dev = v.dev.calibrating (level 0) := rfl
    rw [hdev, calibrating_completing hflag, stored,
      finish_storeZero (zone_of_code (Or.inr hflag)) (hlines v.dev), Dev.newZero, hmean]
    rfl
  have := (hstored.symm.trans (hval 0 (hlines v.dev))).trans havg
  exact absurd this (by decide)

end Watched

end VectorFence
