import VectorFence.Device

/-! The order of the lines in `ADC_Check`. Its loop reports a slack line only while no broken line
    has been met, so what it reports of a zone with both depends on which of them comes first.

        line      0       1       2                     relax
        whole ──▶ slack ──▶ broken                      reported, with a broken line in the zone
        broken ──▶ slack (hidden)                       not reported

    `Dev.rearrange` gives the lines of a zone another order. All orders give the same report, and
    relaxation is never reported beside a broken line, exactly when the zone does not have both
    (`Dev.orderFree_iff`). -/

namespace VectorFence

/-- The lines of the loop, `for (i = 0; i < line_count; i++)`. -/
def Wires.lines (w : Wires) : List Line := (List.finRange 6).filter fun i : Line => i.val < w.lineCount

theorem Wires.mem_lines {w : Wires} {i : Line} : i ∈ w.lines ↔ i.val < w.lineCount := by
  simp [Wires.lines]

theorem Wires.lines_head (w : Wires) : ∃ is, w.lines = 0 :: is := by
  cases w <;> exact ⟨_, rfl⟩

/-- A permutation of the lines in use. -/
def Wires.Permutes (w : Wires) (σ : Equiv.Perm Line) : Prop :=
  ∀ i, (σ i).val < w.lineCount ↔ i.val < w.lineCount

/-- What a line shows: the scaled mean of its readings less its zero value, or what it showed last
    while a calibration is running. -/
def Adc.tension (r : Readings) (f : Zone) (s : Adc) (i : Line) : Int16 :=
  if s.calibratingFlag = 0xff then
    let v := Int16.ofNat (tempVal r adcTimeDefault i / adcTimeDefault * s.tensionMaxRange.toNat /
      4096) - s.zeroVal f i
    if v < 0 then 0 else v
  else s.crtVal f i

theorem Adc.crtVal_updateCrtSmp (w : Wires) (r : Readings) (f : Zone) (s : Adc) {i : Line}
    (hi : i.val < w.lineCount) : (updateCrtSmp w r f s).crtVal f i = s.tension r f i := by
  rw [updateCrtSmp, tension]
  split_ifs
  · simp [sampleAdc, hi]
  · rfl

/-! ### The loop -/

namespace Alarm

/-- `crt_val - base_val > alarm_threshold_up_dif`. -/
def isTight (adc : Adc) (f : Zone) (s : Alarm) (i : Line) : Bool :=
  decide ((adc.crtVal f i).toInt - (adc.baseVal f i).toInt > s.alarmThresholdUpDif.toNat)

/-- `crt_val < OPEN_VAL_MAX_KG`. -/
def isBroken (adc : Adc) (f : Zone) (i : Line) : Bool := decide ((adc.crtVal f i).toInt < openValMaxKg)

/-- `base_val - crt_val > alarm_threshold_down_dif`. -/
def isSlack (adc : Adc) (f : Zone) (s : Alarm) (i : Line) : Bool :=
  decide ((adc.baseVal f i).toInt - (adc.crtVal f i).toInt > s.alarmThresholdDownDif.toNat)

/-- A slack line before any broken one. -/
def slackFirst (broken slack : Line → Bool) : List Line → Bool
  | [] => false
  | i :: is => !broken i && (slack i || slackFirst broken slack is)

variable {broken slack : Line → Bool}

theorem slackFirst_of_whole {is : List Line} (h : ∀ i ∈ is, broken i = false) :
    slackFirst broken slack is = true ↔ ∃ i ∈ is, slack i = true := by
  induction is with
  | nil => simp [slackFirst]
  | cons i is ih => simp [slackFirst, h i, ih fun j hj => h j (List.mem_cons_of_mem i hj)]

theorem slackFirst_imp {is : List Line} (h : slackFirst broken slack is = true) :
    ∃ i ∈ is, broken i = false ∧ slack i = true := by
  induction is with
  | nil => simp [slackFirst] at h
  | cons i is ih =>
    simp only [slackFirst, Bool.and_eq_true, Bool.not_eq_true', Bool.or_eq_true] at h
    obtain ⟨hi, hs | hrest⟩ := h
    · exact ⟨i, List.mem_cons_self, hi, hs⟩
    · obtain ⟨j, hj, hslack⟩ := ih hrest
      exact ⟨j, List.mem_cons_of_mem i hj, hslack⟩

/-- The reports of a zone after some turns of the loop, from those before. -/
theorem foldl_adcCheckLine (adc : Adc) (f : Zone) (is : List Line) (s : Alarm) :
    (is.foldl (adcCheckLine adc f) s).adcInvdCrt f = (s.adcInvdCrt f || is.any (isTight adc f s)) ∧
      (is.foldl (adcCheckLine adc f) s).adcOpenCrt f = (s.adcOpenCrt f || is.any (isBroken adc f)) ∧
      (is.foldl (adcCheckLine adc f) s).adcRelaxCrt f =
        (s.adcRelaxCrt f || (!s.adcOpenCrt f && slackFirst (isBroken adc f) (isSlack adc f s) is)) := by
  induction is generalizing s with
  | nil => simp [slackFirst]
  | cons i is ih =>
    obtain ⟨hinvd, hopen, hrelax⟩ := ih (adcCheckLine adc f s i)
    have htight : isTight adc f (adcCheckLine adc f s i) = isTight adc f s := rfl
    have hslack : isSlack adc f (adcCheckLine adc f s i) = isSlack adc f s := rfl
    rw [List.foldl_cons, hinvd, hopen, hrelax, htight, hslack]
    simp only [adcCheckLine, Function.update_self, List.any_cons, slackFirst]
    refine ⟨by rw [Bool.or_assoc]; rfl, by rw [Bool.or_assoc]; rfl, ?_⟩
    change ((s.adcRelaxCrt f || !(s.adcOpenCrt f || isBroken adc f i) && isSlack adc f s i) ||
      !(s.adcOpenCrt f || isBroken adc f i) && _) = _
    cases s.adcRelaxCrt f <;> cases s.adcOpenCrt f <;> cases isBroken adc f i <;> simp

end Alarm

/-! ### The check -/

def Readings.rearrange (σ : Equiv.Perm Line) (r : Readings) : Readings := fun t i => r t (σ i)

/-- The lines of a zone in another order: line `i` carries what line `σ i` carried. -/
def Adc.rearrange (σ : Equiv.Perm Line) (f : Zone) (s : Adc) : Adc :=
  { s with
    zeroVal := Function.update s.zeroVal f (s.zeroVal f ∘ σ)
    baseVal := Function.update s.baseVal f (s.baseVal f ∘ σ)
    crtSmp := Function.update s.crtSmp f (s.crtSmp f ∘ σ)
    crtVal := Function.update s.crtVal f (s.crtVal f ∘ σ) }

theorem Adc.tension_rearrange (σ : Equiv.Perm Line) (r : Readings) (f : Zone) (s : Adc) (i : Line) :
    (s.rearrange σ f).tension (r.rearrange σ) f i = s.tension r f (σ i) := by
  simp only [tension, rearrange, Function.update_self, Function.comp_apply]
  rfl

theorem Adc.baseVal_rearrange (σ : Equiv.Perm Line) (f : Zone) (s : Adc) (i : Line) :
    (s.rearrange σ f).baseVal f i = s.baseVal f (σ i) := by
  simp only [rearrange, Function.update_self, Function.comp_apply]

theorem Wires.Permutes.exists_iff {w : Wires} {σ : Equiv.Perm Line} (h : w.Permutes σ)
    {p : Line → Prop} :
    (∃ i, i.val < w.lineCount ∧ p (σ i)) ↔ ∃ i, i.val < w.lineCount ∧ p i := by
  constructor
  · rintro ⟨i, hi, hp⟩
    exact ⟨σ i, (h i).mpr hi, hp⟩
  · rintro ⟨i, hi, hp⟩
    refine ⟨σ.symm i, (h _).mp ?_, ?_⟩
    · rwa [σ.apply_symm_apply]
    · rwa [σ.apply_symm_apply]

namespace Dev

open Alarm

def rearrange (σ : Equiv.Perm Line) (f : Zone) (d : Dev) : Dev := { d with adc := d.adc.rearrange σ f }

/-- A line above its base value by more than the upper threshold. -/
def Tight (f : Zone) (r : Readings) (d : Dev) (i : Line) : Prop :=
  (d.adc.tension r f i).toInt - (d.adc.baseVal f i).toInt > d.alarm.alarmThresholdUpDif.toNat

/-- A line with a tension below `OPEN_VAL_MAX_KG`. -/
def Broken (f : Zone) (r : Readings) (d : Dev) (i : Line) : Prop :=
  (d.adc.tension r f i).toInt < openValMaxKg

/-- A line below its base value by more than the lower threshold. -/
def Slack (f : Zone) (r : Readings) (d : Dev) (i : Line) : Prop :=
  (d.adc.baseVal f i).toInt - (d.adc.tension r f i).toInt > d.alarm.alarmThresholdDownDif.toNat

/-- `i` is one of the 4 or 6 lines of the fence. -/
abbrev InUse (d : Dev) (i : Line) : Prop := i.val < d.alarm.w4W6.lineCount

variable {f : Zone} {r : Readings} {d : Dev} {σ : Equiv.Perm Line}

theorem tight_rearrange (i : Line) :
    (d.rearrange σ f).Tight f (r.rearrange σ) i ↔ d.Tight f r (σ i) := by
  rw [Tight, Tight, rearrange, Adc.tension_rearrange, Adc.baseVal_rearrange]

theorem broken_rearrange (i : Line) :
    (d.rearrange σ f).Broken f (r.rearrange σ) i ↔ d.Broken f r (σ i) := by
  rw [Broken, Broken, rearrange, Adc.tension_rearrange]

theorem slack_rearrange (i : Line) :
    (d.rearrange σ f).Slack f (r.rearrange σ) i ↔ d.Slack f r (σ i) := by
  rw [Slack, Slack, rearrange, Adc.tension_rearrange, Adc.baseVal_rearrange]

/-- What a check reports, by the lines as they are after the sampling. -/
theorem adcCheck_crt (f : Zone) (r : Readings) (d : Dev) :
    let e := d.adcCheck f r
    e.crt f .invd = d.alarm.w4W6.lines.any (isTight e.adc f d.alarm) ∧
      e.crt f .opn = d.alarm.w4W6.lines.any (isBroken e.adc f) ∧
      e.crt f .rlx = slackFirst (isBroken e.adc f) (isSlack e.adc f d.alarm) d.alarm.w4W6.lines := by
  have h := foldl_adcCheckLine (d.adcCheck f r).adc f d.alarm.w4W6.lines
    { d.alarm with
      adcInvdCrt := Function.update d.alarm.adcInvdCrt f false
      adcOpenCrt := Function.update d.alarm.adcOpenCrt f false
      adcRelaxCrt := Function.update d.alarm.adcRelaxCrt f false }
  simp only [Function.update_self, Bool.false_or, Bool.not_false, Bool.true_and] at h
  exact h

theorem crtVal_adcCheck {i : Line} (hi : d.InUse i) :
    (d.adcCheck f r).adc.crtVal f i = d.adc.tension r f i :=
  Adc.crtVal_updateCrtSmp _ _ _ _ hi

theorem baseVal_adcCheck (i : Line) : (d.adcCheck f r).adc.baseVal f i = d.adc.baseVal f i := by
  simp only [adcCheck, Adc.updateCrtSmp]
  split_ifs <;> rfl

theorem isTight_iff {i : Line} (hi : d.InUse i) :
    isTight (d.adcCheck f r).adc f d.alarm i = true ↔ d.Tight f r i := by
  rw [isTight, crtVal_adcCheck hi, baseVal_adcCheck, decide_eq_true_iff, Tight]

theorem isBroken_iff {i : Line} (hi : d.InUse i) :
    isBroken (d.adcCheck f r).adc f i = true ↔ d.Broken f r i := by
  rw [isBroken, crtVal_adcCheck hi, decide_eq_true_iff, Broken]

theorem isSlack_iff {i : Line} (hi : d.InUse i) :
    isSlack (d.adcCheck f r).adc f d.alarm i = true ↔ d.Slack f r i := by
  rw [isSlack, crtVal_adcCheck hi, baseVal_adcCheck, decide_eq_true_iff, Slack]

theorem invd_iff : (d.adcCheck f r).crt f .invd = true ↔ ∃ i, d.InUse i ∧ d.Tight f r i := by
  rw [(adcCheck_crt f r d).1, List.any_eq_true]
  refine exists_congr fun i => ?_
  rw [Wires.mem_lines]
  exact and_congr_right isTight_iff

theorem opn_iff : (d.adcCheck f r).crt f .opn = true ↔ ∃ i, d.InUse i ∧ d.Broken f r i := by
  rw [(adcCheck_crt f r d).2.1, List.any_eq_true]
  refine exists_congr fun i => ?_
  rw [Wires.mem_lines]
  exact and_congr_right isBroken_iff

/-- Relaxation is reported for a slack line that is not broken … -/
theorem exists_of_rlx (h : (d.adcCheck f r).crt f .rlx = true) :
    ∃ i, d.InUse i ∧ ¬d.Broken f r i ∧ d.Slack f r i := by
  rw [(adcCheck_crt f r d).2.2] at h
  obtain ⟨i, hi, hbroken, hslack⟩ := slackFirst_imp h
  rw [Wires.mem_lines] at hi
  refine ⟨i, hi, ?_, (isSlack_iff hi).mp hslack⟩
  rw [← isBroken_iff hi, hbroken]
  exact Bool.false_ne_true

/-- … always when no line is broken … -/
theorem rlx_iff_of_whole (h : ∀ i, d.InUse i → ¬d.Broken f r i) :
    (d.adcCheck f r).crt f .rlx = true ↔ ∃ i, d.InUse i ∧ d.Slack f r i := by
  rw [(adcCheck_crt f r d).2.2, slackFirst_of_whole]
  · refine exists_congr fun i => ?_
    rw [Wires.mem_lines]
    exact and_congr_right isSlack_iff
  · intro i hi
    rw [Wires.mem_lines] at hi
    exact Bool.eq_false_iff.mpr fun hb => h i hi ((isBroken_iff hi).mp hb)

theorem inUse_zero (d : Dev) : d.InUse 0 := by
  cases h : d.alarm.w4W6 <;> simp [InUse, h, Wires.lineCount]

/-- … and always for the first line. -/
theorem rlx_of_first (hb : ¬d.Broken f r 0) (hs : d.Slack f r 0) :
    (d.adcCheck f r).crt f .rlx = true := by
  obtain ⟨is, his⟩ := d.alarm.w4W6.lines_head
  have hwhole : isBroken (d.adcCheck f r).adc f 0 = false :=
    Bool.eq_false_iff.mpr fun h => hb ((isBroken_iff d.inUse_zero).mp h)
  rw [(adcCheck_crt f r d).2.2, his, slackFirst, hwhole, (isSlack_iff d.inUse_zero).mpr hs]
  rfl

/-- The check reports the same for every order of the lines in use, and no relaxation beside a
    broken line. -/
structure OrderFree (f : Zone) (r : Readings) (d : Dev) : Prop where
  order : ∀ σ : Equiv.Perm Line, d.alarm.w4W6.Permutes σ →
    ∀ c, ((d.rearrange σ f).adcCheck f (r.rearrange σ)).crt f c = (d.adcCheck f r).crt f c
  relax : (d.adcCheck f r).crt f .rlx = true →
    ∀ i, d.InUse i → ¬((d.adcCheck f r).adc.crtVal f i).toInt < openValMaxKg

theorem permutes_swap {i : Line} (hi : d.InUse i) : d.alarm.w4W6.Permutes (Equiv.swap 0 i) := by
  intro j
  rw [Equiv.swap_apply_def]
  split_ifs with h0 hji
  · rw [h0]
    exact iff_of_true hi d.inUse_zero
  · rw [hji]
    exact iff_of_true d.inUse_zero hi
  · rfl

theorem orderFree_iff (f : Zone) (r : Readings) (d : Dev) :
    d.OrderFree f r ↔
      ¬((∃ i, d.InUse i ∧ d.Broken f r i) ∧ ∃ i, d.InUse i ∧ ¬d.Broken f r i ∧ d.Slack f r i) := by
  constructor
  · rintro ⟨horder, hrelax⟩ ⟨⟨i, hi, hbroken⟩, j, hj, hwhole, hslack⟩
    -- with the slack line in front relaxation is reported, hence in the given order too
    have hfirst : ((d.rearrange (Equiv.swap 0 j) f).adcCheck f (r.rearrange (Equiv.swap 0 j))).crt f
      .rlx = true := by
      apply rlx_of_first
      · rwa [broken_rearrange, Equiv.swap_apply_left]
      · rwa [slack_rearrange, Equiv.swap_apply_left]
    rw [horder _ (permutes_swap hj)] at hfirst
    apply hrelax hfirst i hi
    rwa [crtVal_adcCheck hi]
  · intro h
    constructor
    · intro σ hσ c
      rw [Bool.eq_iff_iff]
      cases c with
      | invd =>
        rw [invd_iff, invd_iff]
        simp only [tight_rearrange]
        exact hσ.exists_iff
      | opn =>
        rw [opn_iff, opn_iff]
        simp only [broken_rearrange]
        exact hσ.exists_iff
      | rlx =>
        by_cases hb : ∃ i, d.InUse i ∧ d.Broken f r i
        · have hnone : ¬∃ i, d.InUse i ∧ ¬d.Broken f r i ∧ d.Slack f r i := fun hs => h ⟨hb, hs⟩
          refine iff_of_false (fun hr => hnone ?_) fun hr => hnone (exists_of_rlx hr)
          obtain ⟨i, hi, hnb, hs⟩ := exists_of_rlx hr
          rw [broken_rearrange] at hnb
          rw [slack_rearrange] at hs
          exact ⟨σ i, (hσ i).mpr hi, hnb, hs⟩
        · have hwhole : ∀ i, d.InUse i → ¬d.Broken f r i := fun i hi hbi => hb ⟨i, hi, hbi⟩
          rw [rlx_iff_of_whole hwhole, rlx_iff_of_whole]
          · simp only [slack_rearrange]
            exact hσ.exists_iff
          · intro i hi hbi
            rw [broken_rearrange] at hbi
            exact hwhole (σ i) ((hσ i).mpr hi) hbi
    · intro hr i hi hbroken
      rw [crtVal_adcCheck hi] at hbroken
      exact h ⟨⟨i, hi, hbroken⟩, exists_of_rlx hr⟩

/-- Base values of 100 and readings that show 40 on line 0 and nothing on the others. -/
def slackThenBroken : Dev := { blank with adc := { Adc.default with baseVal := fun _ _ => 100 } }

theorem not_orderFree : ¬∀ (f : Zone) (r : Readings) (d : Dev), d.OrderFree f r := by
  intro h
  have hrelax := (h 0 (fun _ i => if i = 0 then 820 else 0) slackThenBroken).relax (by decide +kernel)
  exact hrelax 1 (by decide) (by decide +kernel)

end Dev

end VectorFence
