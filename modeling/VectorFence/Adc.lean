import VectorFence.FieldPara

/-! The tension measurement of `adc.c`. Every line of a zone is sampled 20 times, the mean scaled to
    tenths of a kilogram (`crtSmp`); `crtVal` is the sample less the line's zero value. A calibration
    accumulates samples and stores their mean as the new zero or base values.

        Get_Adc ──▶ sampleAdc ──▶ crtSmp ──▶ updateCrtSmp ──▶ crtVal
                                     └─────▶ calibrating  ──▶ zeroVal, baseVal

    What `Get_Adc` returns comes from outside: `Readings` gives the value of each line in each of the
    sampling rounds. -/

namespace VectorFence

/-- The six lines of a zone, of which a four-wire fence uses the first four. -/
abbrev Line := Fin 6

instance Line.neZero : NeZero 6 := ⟨Nat.succ_ne_zero 5⟩

/-- `W4_W6`: the number of wires. -/
inductive Wires where | isW4 | isW6
  deriving DecidableEq, Repr

/-- `line_count`. -/
def Wires.lineCount : Wires → ℕ
  | .isW4 => 4
  | .isW6 => 6

/-- What `Get_Adc` returns for a line in a sampling round. -/
abbrev Readings := ℕ → Line → ℕ

/-- The variables of `adc.c`. -/
structure Adc where
  tensionMaxRange : UInt16
  zeroVal : Zone → Line → Int16
  baseVal : Zone → Line → Int16
  crtSmp : Zone → Line → Int16
  crtVal : Zone → Line → Int16
  calibratingFlag : UInt8
  calibrateEn : Zone → UInt8
  baseAutoCalibrateTime : UInt16
  calibrateTempVal : Line → ℤ
  calibrateAdcCnt : UInt16

def adcTimeDefault : ℕ := 20
def tensionMaxRangeDef : UInt16 := 200

namespace Adc

/-- The values after `Adc_Init` on a device that was never calibrated. -/
def default : Adc where
  tensionMaxRange := tensionMaxRangeDef
  zeroVal _ _ := 0
  baseVal _ _ := 0
  crtSmp _ _ := 0
  crtVal _ _ := 0
  calibratingFlag := 0xFF
  calibrateEn _ := 1
  baseAutoCalibrateTime := 30
  calibrateTempVal _ := 0
  calibrateAdcCnt := 0

/-- `temp_val[i]` after `times` sampling rounds. -/
def tempVal (r : Readings) (times : ℕ) (i : Line) : ℕ :=
  (List.range times).foldl (fun acc t => acc + r t i) 0

/-- `sampleAdc`: the lines in use get their scaled mean, cut to 16 bits. -/
def sampleAdc (wires : Wires) (r : Readings) (f : Zone) (times : ℕ) (s : Adc) : Adc :=
  let times := if times = 0 then adcTimeDefault else times
  { s with crtSmp := Function.update s.crtSmp f fun i =>
      if i < wires.lineCount then
        Int16.ofNat (tempVal r times i / times * s.tensionMaxRange.toNat / 4096)
      else s.crtSmp f i }

/-- `updateCrtSmp`: nothing is sampled while a calibration is running. -/
def updateCrtSmp (wires : Wires) (r : Readings) (f : Zone) (s : Adc) : Adc :=
  if s.calibratingFlag = 0xff then
    let s := sampleAdc wires r f 0 s
    { s with
      calibrateEn := Function.update s.calibrateEn f 1
      crtVal := Function.update s.crtVal f fun i =>
        if i < wires.lineCount then
          let v := s.crtSmp f i - s.zeroVal f i
          if v < 0 then 0 else v
        else s.crtVal f i }
  else s

def updateZeroVal (f : Zone) (s : Adc) : Adc :=
  { s with calibratingFlag := 0x00 ||| UInt8.ofNat f }

def updateBaseVal (f : Zone) (s : Adc) : Adc :=
  { s with calibratingFlag := 0x10 ||| UInt8.ofNat f }

end Adc

end VectorFence
