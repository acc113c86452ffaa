import VectorFence.Alarm.Latch
import VectorFence.Alarm.Debounce

/-! The alarm log against the alarm word. Two handlers write the log, each together with the bit whose
    alarm it confirms; every other operation only clears these bits or leaves them alone.

        ADC_Check_Handler ──confirm──▶ bit of the condition, WriteLog (not for relaxation)
        FANG_CHAI_Check   ──4 counts─▶ AB_FCH, WriteLog
        SW1, SW2          ───────────▶ their own bits, no log

    `logCalls` lists the calls of a step; `alarmStep_log` says that the log of the device is the one
    that these calls leave. -/

namespace VectorFence

open Alarm AlarmWord

/-- The bit of a log type in `ALARM_STATE`. -/
def LogType.mask : LogType → ℕ
  | .AIVD => aInvdMask
  | .AOPN => aOpnMask
  | .BIVD => bInvdMask
  | .BOPN => bOpnMask
  | .FC => abFchMask

/-- Bit `m` goes from 0 to 1. -/
def AlarmWord.rises (m : ℕ) (s s' : AlarmWord) : Bool := !getAlarmState s m && getAlarmState s' m

namespace Dev

variable {d : Dev} {f : Zone} {c : Cond} {t : LogType} {b : Bool}

/-! ### The tamper check -/

/-- A tamper counter that is at zero is started. -/
def startFc (d : Dev) : Dev :=
  if d.alarm.fcAlmVerifyCnt = 0 then { d with alarm := { d.alarm with fcAlmVerifyCnt := 1 } } else d

/-- The tamper alarm is taken back. -/
def dropFc (d : Dev) : Dev :=
  { d with alarm := { d.alarm with fcAlmVerifyCnt := 0 }.clear abFchMask }

/-- `FANG_CHAI_Check`, with the level of the pin; the value returned is `ALARM` or `NO_ALARM`. -/
def fangChaiCheck (pin : Bool) (d : Dev) : Dev × Bool :=
  let last := getAlarmState d.alarm.alarmState abFchMask
  if d.alarm.flagFcgjsn = .on then
    if pin = last then (d, last)
    else if pin then
      let d := d.startFc
      if d.alarm.fcAlmVerifyCnt = 4 then
        ({ d with alarm := setAlarmStateUtilClear abFchMask d.alarm }.writeLog .FC 1, true)
      else (d, false)
    else (d.dropFc, false)
  else (d.dropFc, false)

/-- The check of an enabled tamper contact confirms the alarm. -/
def FcConfirms (pin : Bool) (d : Dev) : Prop :=
  d.alarm.flagFcgjsn = .on ∧ pin = true ∧ getAlarmState d.alarm.alarmState abFchMask = false ∧
    d.startFc.alarm.fcAlmVerifyCnt = 4

instance (pin : Bool) (d : Dev) : Decidable (FcConfirms pin d) := by unfold FcConfirms; infer_instance

theorem startFc_alarmState : d.startFc.alarm.alarmState = d.alarm.alarmState := by
  rw [startFc]
  split_ifs <;> rfl

theorem startFc_frame : d.startFc.mem = d.mem ∧ d.startFc.log = d.log ∧
    d.startFc.rtcTempStr = d.rtcTempStr := by
  rw [startFc]
  split_ifs <;> exact ⟨rfl, rfl, rfl⟩

/-- What the check leaves: the confirmed alarm, the state with a started counter, or none. -/
theorem fangChaiCheck_eq (pin : Bool) : (d.fangChaiCheck pin).1 =
    if FcConfirms pin d then
      { d.startFc with alarm := setAlarmStateUtilClear abFchMask d.startFc.alarm }.writeLog .FC 1
    else if d.alarm.flagFcgjsn = .on ∧ pin = getAlarmState d.alarm.alarmState abFchMask then d
    else if d.alarm.flagFcgjsn = .on ∧ pin = true then d.startFc
    else d.dropFc := by
  rw [fangChaiCheck]
  simp only [FcConfirms]
  by_cases hon : d.alarm.flagFcgjsn = .on
  · rcases Bool.eq_false_or_eq_true (getAlarmState d.alarm.alarmState abFchMask) with hl | hl <;>
      cases pin <;> simp only [hon, hl, if_true] <;> simp
    split_ifs <;> rfl
  · simp [hon]

theorem fangChaiCheck_bit (pin : Bool) (m : ℕ) :
    getAlarmState (d.fangChaiCheck pin).1.alarm.alarmState m =
      if m = abFchMask then
        decide (FcConfirms pin d) || (decide (d.alarm.flagFcgjsn = .on) && pin &&
          getAlarmState d.alarm.alarmState m)
      else getAlarmState d.alarm.alarmState m := by
  have hset (e : Dev) : getAlarmState (({ e with
      alarm := setAlarmStateUtilClear abFchMask e.alarm } : Dev).writeLog .FC 1).alarm.alarmState m =
      (getAlarmState e.alarm.alarmState m || decide (abFchMask = m)) := get_set (by decide) ..
  have hdrop : getAlarmState d.dropFc.alarm.alarmState m =
      (getAlarmState d.alarm.alarmState m && !decide (abFchMask = m)) := by
    rcases lt_or_ge m 16 with hm | hm
    · exact get_clear hm ..
    · have hout (s : AlarmWord) : getAlarmState s m = false := BitVec.getLsbD_of_ge s m hm
      rw [hout, hout, Bool.false_and]
  rw [fangChaiCheck_eq]
  by_cases hm : m = abFchMask
  · subst hm
    rw [if_pos rfl]
    split_ifs with hc hsame hpin
    · simp [hset, hc]
    · cases pin <;> simp [hc, hsame.1, ← hsame.2]
    · have hl : getAlarmState d.alarm.alarmState abFchMask = false := by
        cases h : getAlarmState d.alarm.alarmState abFchMask with
        | false => rfl
        | true => exact absurd ⟨hpin.1, hpin.2.trans h.symm⟩ hsame
      simp [startFc_alarmState, hc, hl]
    · rw [hdrop]
      by_cases hon : d.alarm.flagFcgjsn = .on <;> cases pin <;> simp_all
  · have hne : decide (abFchMask = m) = false := decide_eq_false (Ne.symm hm)
    rw [if_neg hm]
    split_ifs
    · rw [hset, hne, Bool.or_false, startFc_alarmState]
    · rfl
    · rw [startFc_alarmState]
    · rw [hdrop, hne, Bool.not_false, Bool.and_true]

/-- The check returns the tamper bit that it leaves. -/
theorem fangChaiCheck_result (pin : Bool) : (d.fangChaiCheck pin).2 =
    getAlarmState (d.fangChaiCheck pin).1.alarm.alarmState abFchMask := by
  rw [fangChaiCheck_bit, if_pos rfl, fangChaiCheck]
  simp only [FcConfirms]
  by_cases hon : d.alarm.flagFcgjsn = .on
  · rcases Bool.eq_false_or_eq_true (getAlarmState d.alarm.alarmState abFchMask) with hl | hl <;>
      cases pin <;> simp only [hon, hl, if_true] <;> simp
    split_ifs with h4 <;> simp [h4]
  · simp [hon]

/-! ### The check of a zone -/

/-- The block for one condition confirms the alarm. -/
def Confirms (f : Zone) (c : Cond) (last : Bool) (d : Dev) : Prop :=
  d.crt f c ≠ last ∧ d.crt f c = true ∧ d.verifyLimit f c ≤ (d.verifier f c).started.toNat

instance (f : Zone) (c : Cond) (last : Bool) (d : Dev) : Decidable (Confirms f c last d) := by
  unfold Confirms; infer_instance

/-- The calls of `WriteLog` of the block for one condition. -/
def checkCondCalls (f : Zone) (c : Cond) (last : Bool) (d : Dev) : List LogType :=
  if Confirms f c last d then (condLog f c).toList else []

/-- The calls of `WriteLog` of `ADC_Check_Handler`. -/
def adcCheckHandlerCalls (f : Zone) (r : Readings) (d : Dev) : List LogType :=
  let e := d.adcCheck f r
  if e.alarm.buFangFlag f = .on then
    let e1 := checkCond f .invd (d.last f .invd) e
    let e2 := checkCond f .opn (d.last f .opn) e1
    checkCondCalls f .invd (d.last f .invd) e ++ checkCondCalls f .opn (d.last f .opn) e1 ++
      checkCondCalls f .rlx (d.last f .rlx) e2
  else []

/-- The calls of `WriteLog` of `FANG_CHAI_Check`. -/
def fangChaiCheckCalls (pin : Bool) (d : Dev) : List LogType := if FcConfirms pin d then [.FC] else []

/-- A condition is logged under the type that has its bit. -/
theorem condLog_eq_some_iff : ∀ {f : Zone} {c : Cond} {t : LogType},
    condLog f c = some t ↔ t.mask = Alarm.mask f c := by
  intro f c t
  revert f t
  cases c <;> decide

theorem startCnt_alarmState : (startCnt f c d).alarm.alarmState = d.alarm.alarmState := by
  rw [startCnt]
  split_ifs
  · cases c <;> rfl
  · rfl

theorem setVerifyCnt_alarmState (n : UInt8) :
    (setVerifyCnt f n c d).alarm.alarmState = d.alarm.alarmState := by
  cases c <;> rfl

theorem confirm_alarmState :
    (d.confirm f c).alarm.alarmState = setAlarmState d.alarm.alarmState (Alarm.mask f c) := by
  cases c <;> rfl

/-- A block touches the bit of its condition only. -/
theorem checkCond_bit_other {m : ℕ} (h : m ≠ Alarm.mask f c) :
    getAlarmState (checkCond f c b d).alarm.alarmState m = getAlarmState d.alarm.alarmState m := by
  have hne : decide (Alarm.mask f c = m) = false := decide_eq_false h.symm
  rw [checkCond_eq]
  split_ifs
  · rfl
  · rw [confirm_alarmState, get_set (mask_lt ..), hne, Bool.or_false, startCnt_alarmState]
  · rw [startCnt_alarmState]
  · rcases lt_or_ge m 16 with hm | hm
    · refine (get_clear hm ..).trans ?_
      rw [hne, Bool.not_false, Bool.and_true, setVerifyCnt_alarmState]
    · rw [getAlarmState, getAlarmState, BitVec.getLsbD_of_ge _ _ hm, BitVec.getLsbD_of_ge _ _ hm]

/-- The bit of the condition stays as long as it is found, and is set when it is confirmed. -/
theorem checkCond_bit_self (hb : d.last f c = b) :
    (checkCond f c b d).last f c = (decide (Confirms f c b d) || (b && d.crt f c)) := by
  have hbit := congrArg Verifier.bit (checkCond_verifier_self (d := d) (f := f) (c := c))
  rw [hb] at hbit
  refine Eq.trans hbit ?_
  have hv : (d.verifier f c).bit = b := hb
  rcases Bool.eq_false_or_eq_true (d.crt f c) with hc | hc
  · cases b with
    | false => simp [Confirms, hc, Verifier.check_found hv]
    | true => simp [Confirms, hc, Verifier.check_latched hv, hv]
  · cases b with
    | false => simp [Confirms, hc, Verifier.check_absent, hv]
    | true => simp [Confirms, hc, Verifier.check_absent, hv]

/-- A block makes the calls for the bits that rise in it. -/
theorem count_checkCondCalls (hb : d.last f c = b) :
    (checkCondCalls f c b d).count t =
      if d.alarm.alarmState.rises t.mask (checkCond f c b d).alarm.alarmState then 1 else 0 := by
  by_cases ht : t.mask = Alarm.mask f c
  · have hlast : getAlarmState d.alarm.alarmState t.mask = b := by rw [ht]; exact hb
    have hafter : getAlarmState (checkCond f c b d).alarm.alarmState t.mask =
        (decide (Confirms f c b d) || (b && d.crt f c)) := by rw [ht]; exact checkCond_bit_self hb
    rw [checkCondCalls, condLog_eq_some_iff.mpr ht, rises, hlast, hafter]
    by_cases hc : Confirms f c b d
    · have hfalse : b = false := by
        cases b with
        | false => rfl
        | true => exact absurd hc.2.1 hc.1
      subst hfalse
      simp [hc]
    · cases b <;> simp [hc]
  · have hnone : (condLog f c).toList.count t = 0 := by
      rw [List.count_eq_zero, Option.mem_toList]
      exact fun h => ht (condLog_eq_some_iff.mp h)
    rw [rises, checkCond_bit_other ht, Bool.not_and_self, if_neg Bool.false_ne_true, checkCondCalls]
    split_ifs
    · exact hnone
    · rfl

theorem adcCheck_alarmState (r : Readings) :
    (d.adcCheck f r).alarm.alarmState = d.alarm.alarmState := by
  have hline : ∀ (s : Alarm) (i : Line), s.alarmState = d.alarm.alarmState →
      (adcCheckLine (d.adcCheck f r).adc f s i).alarmState = d.alarm.alarmState := fun _ _ hs => hs
  exact Run.foldl_inv (fun s : Alarm => s.alarmState = d.alarm.alarmState) hline _ _ rfl

/-- A bit that is set after a bit was cleared was set before. -/
theorem get_of_get_clear (s : AlarmWord) (k m : ℕ) (h : getAlarmState (clearAlarmState s k) m = true) :
    getAlarmState s m = true := by
  rw [getAlarmState, clearAlarmState, BitVec.getLsbD_and, Bool.and_eq_true] at h
  exact h.1

theorem rises_eq_false {m : ℕ} {s s' : AlarmWord}
    (h : getAlarmState s' m = true → getAlarmState s m = true) : s.rises m s' = false := by
  rw [rises]
  cases hs' : getAlarmState s' m with
  | false => rw [Bool.and_false]
  | true => rw [h hs', Bool.not_true, Bool.false_and]

/-- Where a bit changes in one of three steps at most, the edges of the steps add up. -/
theorem edges_of_three : ∀ {b0 b1 b2 b3 : Bool}, (b1 = b0 ∨ b2 = b1 ∧ b3 = b2) ∧ (b2 = b1 ∨ b3 = b2) →
    (if (!b0 && b1) = true then 1 else 0) + (if (!b1 && b2) = true then 1 else 0) +
      (if (!b2 && b3) = true then 1 else 0) = if (!b0 && b3) = true then 1 else 0 := by
  decide

/-- The handler makes the calls for the bits that rise in it. -/
theorem count_adcCheckHandlerCalls (r : Readings) :
    (adcCheckHandlerCalls f r d).count t =
      if d.alarm.alarmState.rises t.mask (d.adcCheckHandler f r).alarm.alarmState then 1 else 0 := by
  have hstate : (d.adcCheck f r).alarm.alarmState = d.alarm.alarmState := adcCheck_alarmState r
  rw [adcCheckHandlerCalls, adcCheckHandler, ← hstate]
  simp only
  by_cases harm : (d.adcCheck f r).alarm.buFangFlag f = .on
  · rw [if_pos harm, if_pos harm]
    have hl0 : (d.adcCheck f r).last f .invd = d.last f .invd := by rw [last, hstate, last]
    set e := d.adcCheck f r
    have hne {k k' : Cond} (h : k ≠ k') : Alarm.mask f k ≠ Alarm.mask f k' := by
      rw [Ne, mask_inj]
      exact fun hk => h hk.2
    set e1 := checkCond f .invd (d.last f .invd) e with he1
    have hl1 : e1.last f .opn = d.last f .opn := by
      rw [last, he1, checkCond_bit_other (hne (by decide)), hstate, last]
    set e2 := checkCond f .opn (d.last f .opn) e1 with he2
    have hl2 : e2.last f .rlx = d.last f .rlx := by
      rw [last, he2, checkCond_bit_other (hne (by decide)), he1,
        checkCond_bit_other (hne (by decide)), hstate, last]
    rw [List.count_append, List.count_append, count_checkCondCalls hl0, count_checkCondCalls hl1,
      count_checkCondCalls hl2, ← he1, ← he2]
    -- a bit belongs to one condition at most, and the other blocks leave it alone
    refine edges_of_three ?_
    by_cases h0 : t.mask = Alarm.mask f .invd
    · have hopn : t.mask ≠ Alarm.mask f .opn := h0 ▸ hne (by decide)
      have hrlx : t.mask ≠ Alarm.mask f .rlx := h0 ▸ hne (by decide)
      exact ⟨Or.inr ⟨checkCond_bit_other hopn, checkCond_bit_other hrlx⟩,
        Or.inr (checkCond_bit_other hrlx)⟩
    · refine ⟨Or.inl (checkCond_bit_other h0), ?_⟩
      by_cases h1 : t.mask = Alarm.mask f .opn
      · exact Or.inr (checkCond_bit_other (h1 ▸ hne (by decide)))
      · exact Or.inl (checkCond_bit_other h1)
  · rw [if_neg harm, if_neg harm, List.count_nil, rises_eq_false, if_neg Bool.false_ne_true]
    intro h
    have h := get_of_get_clear _ _ _ (get_of_get_clear _ _ _ (get_of_get_clear _ _ _ h))
    rwa [setVerifyCnt_alarmState, setVerifyCnt_alarmState, setVerifyCnt_alarmState] at h

/-- The handler touches the bits of its zone only. -/
theorem adcCheckHandler_bit_other (r : Readings) {m : ℕ} (hm : m < 16) (h : ∀ c, m ≠ Alarm.mask f c) :
    getAlarmState (d.adcCheckHandler f r).alarm.alarmState m = getAlarmState d.alarm.alarmState m := by
  have hclear (s : AlarmWord) (c : Cond) :
      getAlarmState (clearAlarmState s (Alarm.mask f c)) m = getAlarmState s m := by
    rw [get_clear hm, decide_eq_false (h c).symm, Bool.not_false, Bool.and_true]
  rw [adcCheckHandler]
  simp only
  split_ifs
  · rw [checkCond_bit_other (h _), checkCond_bit_other (h _), checkCond_bit_other (h _),
      adcCheck_alarmState]
  · refine (hclear _ .rlx).trans ((hclear _ .invd).trans ((hclear _ .opn).trans ?_))
    rw [setVerifyCnt_alarmState, setVerifyCnt_alarmState, setVerifyCnt_alarmState, adcCheck_alarmState]

/-- The tamper check makes its call when the tamper bit rises. -/
theorem count_fangChaiCheckCalls (pin : Bool) :
    (fangChaiCheckCalls pin d).count t =
      if d.alarm.alarmState.rises t.mask (d.fangChaiCheck pin).1.alarm.alarmState then 1 else 0 := by
  rw [fangChaiCheckCalls, rises, fangChaiCheck_bit]
  by_cases ht : t.mask = abFchMask
  · have hfc : t = .FC := by
      revert t
      decide
    subst hfc
    rw [ht, if_pos rfl]
    by_cases hc : FcConfirms pin d
    · simp [hc, hc.2.2.1]
    · rw [if_neg hc, decide_eq_false hc, Bool.false_or, if_neg, List.count_nil]
      intro h
      simp only [Bool.and_eq_true, Bool.not_eq_true'] at h
      exact absurd h.2.2 (by simp [h.1])
  · have hfc : t ≠ .FC := by
      rintro rfl
      exact ht rfl
    rw [if_neg ht, Bool.not_and_self, if_neg Bool.false_ne_true]
    split_ifs
    · exact List.count_eq_zero.mpr (by simpa using hfc)
    · rfl

/-! ### The calls and the log -/

/-- The EEPROM and the log after some calls of `WriteLog`. -/
def logged (rtcTempStr : List UInt8) (calls : List LogType) (s : Eeprom × Log) : Eeprom × Log :=
  calls.foldl (fun s t => Log.writeLog s.1 s.2 t rtcTempStr 1) s

theorem startCnt_frame : (startCnt f c d).mem = d.mem ∧ (startCnt f c d).log = d.log ∧
    (startCnt f c d).rtcTempStr = d.rtcTempStr := by
  rw [startCnt]
  split_ifs
  · cases c <;> exact ⟨rfl, rfl, rfl⟩
  · exact ⟨rfl, rfl, rfl⟩

/-- What a block leaves in the EEPROM and the log is what its calls leave. -/
theorem checkCond_logged : ((checkCond f c b d).mem, (checkCond f c b d).log) =
      logged d.rtcTempStr (checkCondCalls f c b d) (d.mem, d.log) ∧
    (checkCond f c b d).rtcTempStr = d.rtcTempStr := by
  obtain ⟨hm, hl, hr⟩ := startCnt_frame (f := f) (c := c) (d := d)
  rw [checkCond_eq, checkCondCalls]
  by_cases hsame : d.crt f c = b
  · rw [if_pos hsame, if_neg fun h : Confirms f c b d => h.1 hsame]
    exact ⟨rfl, rfl⟩
  · rw [if_neg hsame]
    by_cases hcrt : d.crt f c = true
    · rw [if_pos hcrt]
      by_cases hlim : d.verifyLimit f c ≤ ((startCnt f c d).verifyCnt f c).toNat
      · have hc : Confirms f c b d := ⟨hsame, hcrt, startCnt_verifyCnt ▸ hlim⟩
        rw [if_pos hlim, if_pos hc]
        cases c <;> simp [confirm, condLog, logged, writeLog, hm, hl, hr]
      · rw [if_neg hlim, if_neg fun h : Confirms f c b d => hlim (startCnt_verifyCnt ▸ h.2.2), hm, hl]
        exact ⟨rfl, hr⟩
    · rw [if_neg hcrt, if_neg fun h : Confirms f c b d => hcrt h.2.1]
      cases c <;> exact ⟨rfl, rfl⟩

theorem adcCheckHandler_logged (r : Readings) :
    ((d.adcCheckHandler f r).mem, (d.adcCheckHandler f r).log) =
      logged d.rtcTempStr (adcCheckHandlerCalls f r d) (d.mem, d.log) := by
  rw [adcCheckHandler, adcCheckHandlerCalls]
  simp only
  split_ifs with harm
  · obtain ⟨h0, hr0⟩ := checkCond_logged (d := d.adcCheck f r) (f := f) (c := .invd) (b :=
      d.last f .invd)
    set e1 := checkCond f .invd (d.last f .invd) (d.adcCheck f r)
    obtain ⟨h1, hr1⟩ := checkCond_logged (d := e1) (f := f) (c := .opn) (b := d.last f .opn)
    set e2 := checkCond f .opn (d.last f .opn) e1
    obtain ⟨h2, -⟩ := checkCond_logged (d := e2) (f := f) (c := .rlx) (b := d.last f .rlx)
    rw [h2, h1, h0, hr1, hr0, logged, logged, logged, logged, List.foldl_append, List.foldl_append]
    rfl
  · rfl

theorem fangChaiCheck_logged (pin : Bool) :
    ((d.fangChaiCheck pin).1.mem, (d.fangChaiCheck pin).1.log) =
      logged d.rtcTempStr (fangChaiCheckCalls pin d) (d.mem, d.log) := by
  obtain ⟨hm, hl, hr⟩ := startFc_frame (d := d)
  rw [fangChaiCheck_eq, fangChaiCheckCalls]
  split_ifs
  · rw [logged, List.foldl_cons, List.foldl_nil, writeLog, hm, hl, hr]
  · rfl
  · rw [hm, hl]
    rfl
  · rfl

theorem tim3_log : d.tim3.log = d.log := by
  have hauto (e : Dev) (i : Zone) : (e.autoCalibrate i).log = e.log := by
    rw [autoCalibrate]
    dsimp only
    split_ifs <;> rfl
  have hsec (e : Dev) : e.tim3Second.log = e.log := by
    rw [tim3Second]
    dsimp only
    split_ifs
    · rw [hauto, hauto]
    · rfl
  obtain ⟨e, he, hl⟩ : ∃ e : Dev, d.tim3 = (if e.timer.rtcTimeCnt + 1 = 2 then e.tim3Second
      else { e with timer := { e.timer with rtcTimeCnt := e.timer.rtcTimeCnt + 1 } }) ∧
      e.log = d.log := ⟨_, rfl, rfl⟩
  rw [he, ← hl]
  split_ifs
  · exact hsec e
  · rfl

theorem tim3_alarmState : d.tim3.alarm.alarmState = d.alarm.alarmState := by
  obtain ⟨e, -, ha, h | ⟨-, h⟩⟩ := tim3_eq (d := d)
  · rw [h, tim3Second_alarm, ha]
    rfl
  · rw [h, ha]
    rfl

theorem tim5_alarmState : d.tim5.alarm.alarmState = d.alarm.alarmState :=
  (tim5Zone_frame ..).1.trans (tim5Zone_frame ..).1

/-! ### The run -/

/-- What the alarm bits of the device are changed by or stay under: the checks of the zones and of the
    tamper contact, the timers, the resets, and the settings that the checks read. -/
inductive AlarmOp where
  | check (f : Zone) (r : Readings)
  | fangChaiCheck (pin : Bool)
  | tim3
  | tim5
  | reset (f : Zone)
  | push (f : Zone) (sw : Switch)
  | fangChai (sw : Switch)
  | setAlarmSensitivity (i : Zone) (sensitivity : UInt8)

def alarmStep (d : Dev) : AlarmOp → Dev
  | .check f r => d.adcCheckHandler f r
  | .fangChaiCheck pin => (d.fangChaiCheck pin).1
  | .tim3 => d.tim3
  | .tim5 => d.tim5
  | .reset f => d.resetSiren f
  | .push f sw => d.push f sw
  | .fangChai sw => d.fangChai sw
  | .setAlarmSensitivity i sensitivity => d.setAlarmSensitivity i sensitivity

/-- The calls of `WriteLog` made in a step. -/
def logCalls (d : Dev) : AlarmOp → List LogType
  | .check f r => adcCheckHandlerCalls f r d
  | .fangChaiCheck pin => fangChaiCheckCalls pin d
  | _ => []

/-- The log after a step is the one that the calls of the step leave. -/
theorem alarmStep_log (op : AlarmOp) :
    (d.alarmStep op).log = (logged d.rtcTempStr (d.logCalls op) (d.mem, d.log)).2 := by
  cases op with
  | check f r => exact congrArg Prod.snd (adcCheckHandler_logged r)
  | fangChaiCheck pin => exact congrArg Prod.snd (fangChaiCheck_logged pin)
  | tim3 => exact tim3_log
  | _ => rfl

/-- A step makes the calls for the bits that rise in it. -/
theorem count_logCalls (op : AlarmOp) : (d.logCalls op).count t =
    if d.alarm.alarmState.rises t.mask (d.alarmStep op).alarm.alarmState then 1 else 0 := by
  have hsame (h : (d.alarmStep op).alarm.alarmState = d.alarm.alarmState) :
      0 = if d.alarm.alarmState.rises t.mask (d.alarmStep op).alarm.alarmState then 1 else 0 := by
    rw [h, rises_eq_false id, if_neg Bool.false_ne_true]
  cases op with
  | check f r => exact count_adcCheckHandlerCalls r
  | fangChaiCheck pin => exact count_fangChaiCheckCalls pin
  | tim3 => exact hsame tim3_alarmState
  | tim5 => exact hsame tim5_alarmState
  | _ => exact hsame rfl

end Dev

namespace Station

/-- A step of the device, or `updateSWAlarmState` with the level of the pins. -/
inductive AlarmEvent where
  | dev (op : Dev.AlarmOp)
  | switch (pins : Fin 2 → Bool) (swNum : Fin 2)

def alarmStep (st : Station) : AlarmEvent → Station
  | .dev op => st.onDev fun d => d.alarmStep op
  | .switch pins swNum => st.updateSWAlarmState pins swNum

/-- The calls of `WriteLog` made in a step; a switch input is not logged. -/
def logCalls (st : Station) : AlarmEvent → List LogType
  | .dev op => st.dev.logCalls op
  | .switch .. => []

/-- The bit of the log type rises in a step. -/
def raises (t : LogType) (st : Station) (ev : AlarmEvent) : Bool :=
  st.dev.alarm.alarmState.rises t.mask (alarmStep st ev).dev.alarm.alarmState

/-- A switch input has a bit of its own. -/
theorem mask_ne_swMask : ∀ (t : LogType) (swNum : Fin 2), t.mask ≠ swMask swNum := by decide

theorem swMask_lt : ∀ swNum : Fin 2, swMask swNum < 16 := by decide

theorem swMask_inj : ∀ {i j : Fin 2}, swMask i = swMask j ↔ i = j := by decide

/-- What the evaluation of an input does to the alarm bits. -/
theorem updateSWAlarmState_bit (st : Station) (pins : Fin 2 → Bool) (swNum : Fin 2) {m : ℕ}
    (hm : m < 16) :
    getAlarmState (st.updateSWAlarmState pins swNum).dev.alarm.alarmState m =
      if m = swMask swNum then decide (st.swType swNum ≠ 0) && pins swNum
      else getAlarmState st.dev.alarm.alarmState m := by
  have hset := get_set (swMask_lt swNum) st.dev.alarm.alarmState m
  have hclear := get_clear hm st.dev.alarm.alarmState (swMask swNum)
  rw [updateSWAlarmState]
  by_cases hact : st.swType swNum ≠ 0 ∧ pins swNum = true
  · rw [if_pos hact]
    refine hset.trans ?_
    split_ifs with h
    · simp [hact.1, hact.2, h]
    · rw [decide_eq_false (Ne.symm h), Bool.or_false]
  · rw [if_neg hact]
    refine hclear.trans ?_
    split_ifs with h
    · rw [decide_eq_true h.symm, Bool.not_true, Bool.and_false, eq_comm, Bool.and_eq_false_imp]
      exact fun htype => Bool.eq_false_of_not_eq_true fun hpin => hact ⟨of_decide_eq_true htype, hpin⟩
    · rw [decide_eq_false (Ne.symm h), Bool.not_false, Bool.and_true]

theorem count_logCalls (st : Station) (ev : AlarmEvent) (t : LogType) :
    (logCalls st ev).count t = if raises t st ev then 1 else 0 := by
  cases ev with
  | dev op => exact Dev.count_logCalls op
  | switch pins swNum =>
    have ht : t.mask < 16 := by revert t; decide
    rw [raises, rises, alarmStep, updateSWAlarmState_bit st pins swNum ht,
      if_neg (mask_ne_swMask t swNum), Bool.not_and_self, if_neg Bool.false_ne_true]
    rfl

/-- In every step of a run the calls of `WriteLog` are the rising edges of the bits of their types,
    and so over the run there are as many of the one as of the other. -/
theorem log_rising_edges (st : Station) (evs : List AlarmEvent) (t : LogType) :
    (∀ p ∈ Run.steps alarmStep st evs,
      (logCalls p.1 p.2).count t = if raises t p.1 p.2 then 1 else 0) ∧
    (∀ p ∈ Run.steps alarmStep st evs, (alarmStep p.1 p.2).dev.log =
      (Dev.logged p.1.dev.rtcTempStr (logCalls p.1 p.2) (p.1.dev.mem, p.1.dev.log)).2) ∧
    ((Run.steps alarmStep st evs).flatMap fun p => logCalls p.1 p.2).count t =
      (Run.steps alarmStep st evs).countP fun p => raises t p.1 p.2 := by
  refine ⟨fun p _ => count_logCalls p.1 p.2 t, fun p _ => ?_, ?_⟩
  · cases p.2 with
    | dev op => exact Dev.alarmStep_log op
    | switch pins swNum => rfl
  · induction evs generalizing st with
    | nil => rfl
    | cons ev evs ih =>
      rw [Run.steps, List.flatMap_cons, List.count_append, List.countP_cons, count_logCalls, ih,
        Nat.add_comm]

end Station

end VectorFence
