import VectorFence.Adc

/-! The scaling of the tension. `sampleAdc` adds up the readings of a line in 32 bits, takes their
    mean and scales it to the range; the result is kept in 16 bits with a sign:

        sum / times * tension_max_range / 4096  ──(u16)──▶ s16
        ≤ 4095        ≤ 65535                     ≤ 65519    32768 … 65519 come out negative

    So the value is the tension exactly up to 32767, and for a range of at most 32776 always. -/

namespace VectorFence

/-- The readings of a converter of 12 bits. -/
abbrev Readings12 := ℕ → Line → Fin 4096

def Readings12.readings (r : Readings12) : Readings := fun t i => r t i

theorem Readings12.le (r : Readings12) (t : ℕ) (i : Line) : r.readings t i ≤ 4095 :=
  Nat.le_of_lt_succ (r t i).isLt

namespace Adc

/-- The number of sampling rounds, which the loop counts in 8 bits. -/
def rounds (times : UInt8) : ℕ := if times.toNat = 0 then adcTimeDefault else times.toNat

/-- `temp_val[i] / times`. -/
def mean (r : Readings) (times : UInt8) (i : Line) : ℕ := tempVal r (rounds times) i / rounds times

/-- The tension of a line in tenths of a kilogram. -/
def scaled (range : UInt16) (r : Readings) (times : UInt8) (i : Line) : ℕ :=
  mean r times i * range.toNat / 4096

variable {wires : Wires} {f : Zone} {times : UInt8} {s : Adc} {i : Line}

theorem rounds_pos (times : UInt8) : 0 < rounds times := by
  rw [rounds]
  split_ifs with h
  · exact Nat.succ_pos 19
  · omega

theorem rounds_lt (times : UInt8) : rounds times < 256 := by
  have hlt := times.toNat_lt
  rw [rounds, adcTimeDefault]
  split_ifs <;> omega

theorem tempVal_succ (r : Readings) (n : ℕ) (i : Line) :
    tempVal r (n + 1) i = tempVal r n i + r n i := by
  rw [tempVal, List.range_succ, List.foldl_append]
  rfl

theorem tempVal_le {r : Readings} {n : ℕ} (h : ∀ t, r t i ≤ 4095) : tempVal r n i ≤ n * 4095 := by
  induction n with
  | zero => exact le_rfl
  | succ n ih =>
    rw [tempVal_succ, Nat.succ_mul]
    exact Nat.add_le_add ih (h n)

theorem tempVal_mono {r r' : Readings} {n : ℕ} (h : ∀ t < n, r' t i ≤ r t i) :
    tempVal r' n i ≤ tempVal r n i := by
  induction n with
  | zero => exact le_rfl
  | succ n ih =>
    rw [tempVal_succ, tempVal_succ]
    exact Nat.add_le_add (ih fun t ht => h t (ht.trans n.lt_succ_self)) (h n n.lt_succ_self)

theorem mean_le {r : Readings} (h : ∀ t, r t i ≤ 4095) : mean r times i ≤ 4095 := by
  rw [mean, Nat.div_le_iff_le_mul_add_pred (rounds_pos times)]
  exact (tempVal_le h).trans (Nat.le_add_right _ _)

theorem scaled_mono (range : UInt16) {r r' : Readings} (h : ∀ t < rounds times, r' t i ≤ r t i) :
    scaled range r' times i ≤ scaled range r times i :=
  Nat.div_le_div_right (Nat.mul_le_mul_right _ (Nat.div_le_div_right (tempVal_mono h)))

theorem crtSmp_sampleAdc (hi : i.val < wires.lineCount) (r : Readings) :
    (sampleAdc wires r f times.toNat s).crtSmp f i = Int16.ofNat
    (scaled s.tensionMaxRange r times i) := by
  simp only [sampleAdc, Function.update_self, if_pos hi]
  rfl

/-- A number is kept by 16 bits with a sign. -/
theorem toInt_ofNat_iff {n : ℕ} : (Int16.ofNat n).toInt = n ↔ n < 0x8000 := by
  have hsize : Int16.size = 0x10000 := rfl
  rw [Int16.toInt_ofNat', hsize, Int.bmod_def]
  split_ifs <;> omega

/-- The line gets its tension as a number, from 0 to the range and not below what smaller readings give;
    nothing overflows on the way. -/
structure ScalesLine (wires : Wires) (r : Readings12) (f : Zone) (times : UInt8) (s : Adc)
    (i : Line) : Prop where
  sums : ∀ n ≤ rounds times, tempVal r.readings n i < 2 ^ 31
  product : mean r.readings times i * s.tensionMaxRange.toNat < 2 ^ 31
  exact : ((sampleAdc wires r.readings f times.toNat s).crtSmp f i).toInt =
    mean r.readings times i * s.tensionMaxRange.toNat / 4096
  nonneg : 0 ≤ ((sampleAdc wires r.readings f times.toNat s).crtSmp f i).toInt
  le_range : ((sampleAdc wires r.readings f times.toNat s).crtSmp f i).toInt ≤ s.tensionMaxRange.toNat
  mono : ∀ r' : Readings12, (∀ t < rounds times, r' t i ≤ r t i) →
    ((sampleAdc wires r'.readings f times.toNat s).crtSmp f i).toInt ≤
      ((sampleAdc wires r.readings f times.toNat s).crtSmp f i).toInt

/-- For the lines of the fence. -/
def Scales (wires : Wires) (r : Readings12) (f : Zone) (times : UInt8) (s : Adc) : Prop :=
  ∀ i : Line, i.val < wires.lineCount → ScalesLine wires r f times s i

theorem scaled_le_range (r : Readings12) (range : UInt16) (times : UInt8) (i : Line) :
    scaled range r.readings times i ≤ range.toNat := by
  have hmean : mean r.readings times i ≤ 4095 := mean_le fun t => r.le t i
  rw [scaled]
  refine Nat.div_le_of_le_mul ?_
  exact Nat.mul_le_mul_right _ (hmean.trans (by norm_num))

theorem scalesLine_iff (r : Readings12) (hi : i.val < wires.lineCount) :
    ScalesLine wires r f times s i ↔ scaled s.tensionMaxRange r.readings times i < 0x8000 := by
  constructor
  · intro h
    have hexact := h.exact
    rw [crtSmp_sampleAdc hi] at hexact
    refine toInt_ofNat_iff.mp (hexact.trans ?_)
    rw [scaled]
    push_cast
    rfl
  · intro h
    have hvalue : (sampleAdc wires r.readings f times.toNat s).crtSmp f i = _ :=
      crtSmp_sampleAdc hi r.readings
    have hmean : mean r.readings times i ≤ 4095 := mean_le fun t => r.le t i
    have hrange := s.tensionMaxRange.toNat_lt
    constructor
    · intro n hn
      have hsum := tempVal_le (n := n) fun t => r.le t i
      have hrounds := rounds_lt times
      omega
    · calc mean r.readings times i * s.tensionMaxRange.toNat ≤ 4095 * 0xFFFF :=
            Nat.mul_le_mul hmean (by omega)
        _ < 2 ^ 31 := by norm_num
    · rw [hvalue, toInt_ofNat_iff.mpr h, scaled]
      push_cast
      rfl
    · rw [hvalue, toInt_ofNat_iff.mpr h]
      exact Int.natCast_nonneg _
    · rw [hvalue, toInt_ofNat_iff.mpr h]
      exact_mod_cast scaled_le_range r _ _ _
    · intro r' hle
      have hmono : scaled s.tensionMaxRange r'.readings times i ≤
        scaled s.tensionMaxRange r.readings times i :=
        scaled_mono s.tensionMaxRange hle
      rw [hvalue, crtSmp_sampleAdc hi, toInt_ofNat_iff.mpr h, toInt_ofNat_iff.mpr (hmono.trans_lt h)]
      exact_mod_cast hmono

/-- The tensions are stored as they are exactly when they are below 32768 tenths of a kilogram. -/
theorem scales_iff (wires : Wires) (r : Readings12) (f : Zone) (times : UInt8) (s : Adc) :
    Scales wires r f times s ↔
      ∀ i : Line, i.val < wires.lineCount → scaled s.tensionMaxRange r.readings times i < 0x8000 :=
  forall₂_congr fun _ hi => scalesLine_iff r hi

/-- All readings are scaled as they should be for a range of at most 32776. -/
theorem scales_range_iff (s : Adc) :
    (∀ wires r f times, Scales wires r f times s) ↔ s.tensionMaxRange.toNat ≤ 32776 := by
  simp only [scales_iff]
  constructor
  · intro h
    have htop := h .isW4 (fun _ _ => 4095) 0 1 0 (by decide)
    have hmean : mean (Readings12.readings fun _ _ => 4095) 1 0 = 4095 := by decide +kernel
    rw [scaled, hmean] at htop
    omega
  · intro h wires r _ times i _
    have hmean : mean r.readings times i ≤ 4095 := mean_le fun t => r.le t i
    rw [scaled]
    have hproduct := Nat.mul_le_mul hmean h
    omega

/-- Full scale on all lines with the largest range. -/
theorem not_scales : ¬∀ (wires : Wires) (r : Readings12) (f : Zone) (times : UInt8) (s : Adc),
    Scales wires r f times s := by
  intro h
  have hnonneg := (h .isW4 (fun _ _ => 4095) 0 0 { default with tensionMaxRange := 0xFFFF } 0
    (by decide)).nonneg
  exact absurd hnonneg (by decide +kernel)

end Adc

end VectorFence
