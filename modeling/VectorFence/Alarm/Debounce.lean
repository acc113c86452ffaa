import VectorFence.Device
import VectorFence.Lib.Run

/-! Confirming an alarm. A condition of a zone sets its alarm bit only after it was found in
    `alarm_sensitivity` half seconds: the first check that finds it starts a verify counter, the timer
    counts, and a later check that finds it reads the counter.

        cnt = 0 ──found──▶ cnt = 1 ──tick──▶ 2 ──tick──▶ … ──found, limit ≤ cnt──▶ bit set
           ▲                                                                          │
           └──────────────────────────────not found───────────────────────────────────┘

    The way back exists only from the bit: a check that does not find a condition whose bit is clear
    leaves the counter running. `Verifier` is one condition of one zone on its own; the handler runs
    three of them for a zone (`adcCheckHandler_verifier`). -/

namespace VectorFence

/-- A verify counter and the alarm bit it guards. -/
structure Verifier where
  cnt : UInt8
  bit : Bool
  deriving DecidableEq, Repr

namespace Verifier

variable {limit : ℕ} {found : Bool} {v : Verifier}

/-- The counter once it is running. -/
def started (v : Verifier) : UInt8 := if v.cnt = 0 then 1 else v.cnt

/-- One check, `found` telling whether the condition is present. -/
def check (limit : ℕ) (found : Bool) (v : Verifier) : Verifier :=
  if found = v.bit then v
  else if found then ⟨v.started, if limit ≤ v.started.toNat then true else v.bit⟩
  else ⟨0, false⟩

theorem started_ne_zero : v.started ≠ 0 := by
  rw [started]
  split_ifs with h
  · decide
  · exact h

/-- A check that finds a condition whose bit is clear starts the counter or reads it. -/
theorem check_found (h : v.bit = false) :
    v.check limit true = ⟨v.started, decide (limit ≤ v.started.toNat)⟩ := by
  rw [check, if_neg (by simp [h]), if_pos rfl, h]
  split_ifs with hl <;> simp [hl]

/-- A check that finds nothing resets the counter of a set bit only. -/
theorem check_absent : v.check limit false = if v.bit then ⟨0, false⟩ else v := by
  rw [check]
  cases h : v.bit <;> simp

theorem check_latched (h : v.bit = true) : v.check limit true = v := by
  rw [check, if_pos h.symm]

end Verifier

theorem Dev.countUp_eq_zero {limit : ℕ} (h : limit < 255) (cnt : UInt8) :
    Dev.countUp limit cnt = 0 ↔ cnt = 0 := by
  have hz : ∀ k : UInt8, k = 0 ↔ k.toNat = 0 := fun k => by rw [← UInt8.toNat_inj]; rfl
  rw [Dev.countUp]
  split_ifs with hc
  · rw [hz, hz, UInt8.toNat_add]
    change (cnt.toNat + 1) % 256 = 0 ↔ _
    have h0 : 0 < cnt.toNat := hc.1
    omega
  · rfl

namespace Dev

open Alarm AlarmWord

variable {d : Dev} {f g : Zone} {c k : Cond}

/-- The verifier of a condition. -/
def verifier (d : Dev) (f : Zone) (c : Cond) : Verifier := ⟨d.verifyCnt f c, d.last f c⟩

/-- Whether a check of the zone with these readings finds the condition. -/
def finds (f : Zone) (c : Cond) (r : Readings) (d : Dev) : Bool := (d.adcCheck f r).crt f c

/-! ### Every condition has its own counter and bit -/

theorem mask_inj : ∀ {f g : Zone} {c k : Cond}, mask f c = mask g k ↔ f = g ∧ c = k := by
  intro f g c k
  rcases zone_cases f with rfl | rfl <;> rcases zone_cases g with rfl | rfl <;>
    cases c <;> cases k <;> decide

theorem mask_lt (f : Zone) (c : Cond) : mask f c < 16 := by
  rcases zone_cases f with rfl | rfl <;> cases c <;> decide

theorem setVerifyCnt_verifyCnt (n : UInt8) :
    (setVerifyCnt f n c d).verifyCnt g k = if g = f ∧ k = c then n else d.verifyCnt g k := by
  rcases eq_or_ne g f with rfl | hg
  · cases c <;> cases k <;> simp [setVerifyCnt, verifyCnt]
  · cases c <;> cases k <;> simp [setVerifyCnt, verifyCnt, hg]

theorem setVerifyCnt_last (n : UInt8) : (setVerifyCnt f n c d).last g k = d.last g k := by
  cases c <;> rfl

theorem setVerifyCnt_verifier (n : UInt8) :
    (setVerifyCnt f n c d).verifier g k =
      if g = f ∧ k = c then ⟨n, d.last g k⟩ else d.verifier g k := by
  rw [verifier, setVerifyCnt_verifyCnt, setVerifyCnt_last]
  split_ifs <;> rfl

theorem confirm_verifier :
    (d.confirm f c).verifier g k =
      if g = f ∧ k = c then ⟨d.verifyCnt g k, true⟩ else d.verifier g k := by
  have hcnt : (d.confirm f c).verifyCnt g k = d.verifyCnt g k := by
    cases c <;> rfl
  have hbit : (d.confirm f c).last g k = (d.last g k || decide (mask f c = mask g k)) := by
    cases c <;> exact get_set (mask_lt ..) ..
  rw [verifier, hcnt, hbit, verifier]
  simp only [mask_inj, eq_comm (a := f), eq_comm (a := c)]
  split_ifs with h <;> simp [h]

theorem clear_verifier :
    verifier { d with alarm := d.alarm.clear (mask f c) } g k =
      if g = f ∧ k = c then ⟨d.verifyCnt g k, false⟩ else d.verifier g k := by
  have hbit : last { d with alarm := d.alarm.clear (mask f c) } g k =
      (d.last g k && !decide (mask f c = mask g k)) := get_clear (mask_lt ..) ..
  rw [verifier, hbit, verifier]
  simp only [mask_inj, eq_comm (a := f), eq_comm (a := c)]
  split_ifs with h
  · simp [h, verifyCnt, Alarm.clear]
  · simp [h, verifyCnt, Alarm.clear]

/-- Two states in which every check of a condition has the same result. -/
structure SameChecks (d d' : Dev) : Prop where
  para : d'.para = d.para
  crt : ∀ g k, d'.crt g k = d.crt g k
  armed : d'.alarm.buFangFlag = d.alarm.buFangFlag

theorem SameChecks.trans {d d' d'' : Dev} (h : SameChecks d d') (h' : SameChecks d' d'') :
    SameChecks d d'' :=
  ⟨h'.para.trans h.para, fun g k => (h'.crt g k).trans (h.crt g k), h'.armed.trans h.armed⟩

theorem setVerifyCnt_same (n : UInt8) : SameChecks d (setVerifyCnt f n c d) := by
  cases c <;> exact ⟨rfl, fun g k => by cases k <;> rfl, rfl⟩

theorem confirm_same : SameChecks d (d.confirm f c) := by
  cases c <;> exact ⟨rfl, fun g k => by cases k <;> rfl, rfl⟩

theorem clear_same (m : ℕ) : SameChecks d { d with alarm := d.alarm.clear m } :=
  ⟨rfl, fun g k => by cases k <;> rfl, rfl⟩

theorem verifyLimit_congr {d d' : Dev} (h : d'.para = d.para) (f : Zone) (c : Cond) :
    d'.verifyLimit f c = d.verifyLimit f c := by
  cases c <;> simp [verifyLimit, h]

/-- A counter that is at zero is started. -/
def startCnt (f : Zone) (c : Cond) (d : Dev) : Dev :=
  if d.verifyCnt f c = 0 then setVerifyCnt f 1 c d else d

theorem startCnt_same : SameChecks d (startCnt f c d) := by
  rw [startCnt]
  split_ifs
  · exact setVerifyCnt_same 1
  · exact ⟨rfl, fun _ _ => rfl, rfl⟩

theorem startCnt_verifier : (startCnt f c d).verifier g k =
    if g = f ∧ k = c then ⟨(d.verifier f c).started, d.last f c⟩ else d.verifier g k := by
  rw [startCnt]
  rcases eq_or_ne (d.verifyCnt f c) 0 with h0 | h0
  · have hs : (d.verifier f c).started = 1 := if_pos h0
    rw [if_pos h0, setVerifyCnt_verifier, hs]
    split_ifs with h
    · rw [h.1, h.2]
    · rfl
  · have hs : (d.verifier f c).started = d.verifyCnt f c := if_neg h0
    rw [if_neg h0, hs]
    split_ifs with h
    · rw [h.1, h.2, verifier]
    · rfl

theorem checkCond_eq (b : Bool) : checkCond f c b d =
    if d.crt f c = b then d
    else if d.crt f c then
      if d.verifyLimit f c ≤ ((startCnt f c d).verifyCnt f c).toNat then (startCnt f c d).confirm f c
      else startCnt f c d
    else { setVerifyCnt f 0 c d with alarm := (setVerifyCnt f 0 c d).alarm.clear (mask f c) } := by
  rw [← verifyLimit_congr startCnt_same.para]
  rfl

theorem checkCond_same (b : Bool) : SameChecks d (checkCond f c b d) := by
  rw [checkCond_eq]
  split_ifs
  · exact ⟨rfl, fun _ _ => rfl, rfl⟩
  · exact startCnt_same.trans confirm_same
  · exact startCnt_same
  · exact (setVerifyCnt_same 0).trans (clear_same _)

theorem startCnt_verifier_self :
    (startCnt f c d).verifier f c = ⟨(d.verifier f c).started, d.last f c⟩ := by
  rw [startCnt_verifier, if_pos ⟨rfl, rfl⟩]

theorem startCnt_verifyCnt : (startCnt f c d).verifyCnt f c = (d.verifier f c).started :=
  congrArg Verifier.cnt startCnt_verifier_self

theorem checkCond_verifier_self :
    (checkCond f c (d.last f c) d).verifier f c =
      (d.verifier f c).check (d.verifyLimit f c) (d.crt f c) := by
  rw [checkCond_eq]
  cases hc : d.crt f c with
  | true =>
    cases hl : d.last f c with
    | true => rw [if_pos rfl, Verifier.check_latched hl]
    | false =>
      rw [if_neg (by decide), if_pos rfl, Verifier.check_found hl, ← startCnt_verifyCnt]
      split_ifs with hlim
      · rw [confirm_verifier, if_pos ⟨rfl, rfl⟩, decide_eq_true hlim]
      · rw [startCnt_verifier_self, ← startCnt_verifyCnt, hl, decide_eq_false hlim]
  | false =>
    cases hl : d.last f c with
    | false =>
      have hb : (d.verifier f c).bit = false := hl
      rw [if_pos rfl, Verifier.check_absent, hb, if_neg (by decide)]
    | true =>
      have hb : (d.verifier f c).bit = true := hl
      rw [if_neg (by decide), if_neg (by decide), Verifier.check_absent, if_pos hb, clear_verifier,
        if_pos ⟨rfl, rfl⟩, setVerifyCnt_verifyCnt, if_pos ⟨rfl, rfl⟩]

theorem checkCond_verifier_other (b : Bool) (h : ¬(g = f ∧ k = c)) :
    (checkCond f c b d).verifier g k = d.verifier g k := by
  have hstart : (startCnt f c d).verifier g k = d.verifier g k := startCnt_verifier.trans (if_neg h)
  rw [checkCond_eq]
  split_ifs with hlast hcrt hlim
  · rfl
  · exact (confirm_verifier.trans (if_neg h)).trans hstart
  · exact hstart
  · refine (clear_verifier.trans (if_neg h)).trans ?_
    exact (setVerifyCnt_verifier 0).trans (if_neg h)

/-! ### The handler -/

/-- What comparing the lines leaves alone. -/
structure AlarmFrame (s s' : Alarm) : Prop where
  armed : s'.buFangFlag = s.buFangFlag
  state : s'.alarmState = s.alarmState
  invd : s'.adcIvdAlmVerifyCnt = s.adcIvdAlmVerifyCnt
  opn : s'.adcOpnAlmVerifyCnt = s.adcOpnAlmVerifyCnt
  rlx : s'.adcRlxAlmVerifyCnt = s.adcRlxAlmVerifyCnt

/-- Sampling and comparing the lines changes no counter, no bit and no flag. -/
theorem adcCheck_frame (r : Readings) :
    (d.adcCheck g r).para = d.para ∧ (d.adcCheck g r).alarm.buFangFlag = d.alarm.buFangFlag ∧
      ∀ f c, (d.adcCheck g r).verifier f c = d.verifier f c := by
  have h : AlarmFrame d.alarm (d.adcCheck g r).alarm :=
    Run.foldl_inv _ (fun s i hs => ⟨hs.1, hs.2, hs.3, hs.4, hs.5⟩) _ _ ⟨rfl, rfl, rfl, rfl, rfl⟩
  refine ⟨rfl, h.armed, fun f c => ?_⟩
  cases c <;> simp only [verifier, verifyCnt, last, h.state, h.invd, h.opn, h.rlx]

/-- A block checks the verifier of the state before the blocks that ran ahead of it. -/
theorem checkCond_verifier_after {e : Dev} (hs : SameChecks d e)
    (hv : e.verifier f c = d.verifier f c) :
    (checkCond f c (d.last f c) e).verifier f c =
      (d.verifier f c).check (d.verifyLimit f c) (d.crt f c) := by
  have hl : d.last f c = e.last f c := congrArg Verifier.bit hv.symm
  rw [hl, checkCond_verifier_self, hv, verifyLimit_congr hs.para, hs.crt]

/-- With the zone armed the handler checks each condition of the zone once. -/
theorem adcCheckHandler_verifier (r : Readings) (harm : d.alarm.buFangFlag f = .on) :
    (d.adcCheckHandler f r).verifier f c =
      (d.verifier f c).check (d.verifyLimit f c) (d.finds f c r) := by
  obtain ⟨hp, ha, hv⟩ := adcCheck_frame (d := d) (g := f) r
  have hlast (c : Cond) : d.last f c = (d.adcCheck f r).last f c := congrArg Verifier.bit (hv f c).symm
  rw [adcCheckHandler, if_pos (by rw [ha, harm]), finds, ← hv, ← verifyLimit_congr hp]
  simp only [hlast]
  generalize d.adcCheck f r = e
  set e1 := checkCond f .invd (e.last f .invd) e with he1
  set e2 := checkCond f .opn (e.last f .opn) e1 with he2
  have h1 : SameChecks e e1 := checkCond_same _
  have h2 : SameChecks e e2 := h1.trans (checkCond_same _)
  have hopn : e1.verifier f .opn = e.verifier f .opn := checkCond_verifier_other _ (by simp)
  have hrlx : e2.verifier f .rlx = e.verifier f .rlx := by
    rw [he2, checkCond_verifier_other _ (by simp), he1, checkCond_verifier_other _ (by simp)]
  cases c with
  | invd =>
    rw [checkCond_verifier_other _ (by simp), he2, checkCond_verifier_other _ (by simp), he1,
      checkCond_verifier_self]
  | opn =>
    rw [checkCond_verifier_other _ (by simp), he2]
    exact checkCond_verifier_after h1 hopn
  | rlx => exact checkCond_verifier_after h2 hrlx

/-- A check of one zone leaves the verifiers of the other alone. -/
theorem adcCheckHandler_other (r : Readings) (h : f ≠ g) :
    (d.adcCheckHandler g r).verifier f c = d.verifier f c := by
  obtain ⟨-, -, hv⟩ := adcCheck_frame (d := d) (g := g) r
  have hne (k : Cond) : ¬(f = g ∧ c = k) := fun hfg => h hfg.1
  rw [adcCheckHandler]
  split_ifs
  · rw [checkCond_verifier_other _ (hne _), checkCond_verifier_other _ (hne _),
      checkCond_verifier_other _ (hne _), hv]
  · have hclear (e : Dev) (k : Cond) : verifier { e with alarm := e.alarm.clear (mask g k) } f c =
        e.verifier f c := clear_verifier.trans (if_neg (hne k))
    have hzero (e : Dev) (k : Cond) : (setVerifyCnt g 0 k e).verifier f c = e.verifier f c :=
      (setVerifyCnt_verifier 0).trans (if_neg (hne k))
    refine ((hclear _ .rlx).trans ((hclear _ .invd).trans (hclear _ .opn))).trans ?_
    rw [hzero, hzero, hzero, hv]

/-- Neither the parameters nor the arming change in a check. -/
theorem adcCheckHandler_frame (r : Readings) : (d.adcCheckHandler g r).para = d.para ∧
    (d.adcCheckHandler g r).alarm.buFangFlag = d.alarm.buFangFlag := by
  obtain ⟨hp, ha, -⟩ := adcCheck_frame (d := d) (g := g) r
  rw [adcCheckHandler]
  split_ifs
  · have h : SameChecks (d.adcCheck g r) _ :=
      ((checkCond_same (f := g) (c := .invd) (d.last g .invd)).trans
      (checkCond_same (f := g) (c := .opn) (d.last g .opn))).trans
      (checkCond_same (f := g) (c := .rlx) (d.last g .rlx))
    exact ⟨h.para.trans hp, h.armed.trans ha⟩
  · have hcnt : SameChecks (d.adcCheck g r) _ := ((setVerifyCnt_same (f := g) (c := .invd) 0).trans
      (setVerifyCnt_same (f := g) (c := .opn) 0)).trans (setVerifyCnt_same (f := g) (c := .rlx) 0)
    have hbits : SameChecks (d.adcCheck g r) _ :=
      ((hcnt.trans (clear_same (mask g .opn))).trans (clear_same (mask g .invd))).trans
        (clear_same (mask g .rlx))
    exact ⟨hbits.para.trans hp, hbits.armed.trans ha⟩

/-! ### The timer -/

theorem autoCalibrate_frame (i : Zone) :
    (d.autoCalibrate i).para = d.para ∧ (d.autoCalibrate i).alarm = d.alarm := by
  rw [autoCalibrate]
  dsimp only
  split_ifs <;> exact ⟨rfl, rfl⟩

theorem tim3Second_para : d.tim3Second.para = d.para := by
  rw [tim3Second]
  split_ifs
  · rw [(autoCalibrate_frame 1).1, (autoCalibrate_frame 0).1]
  · rfl

/-- The seconds of the timer count for relaxation and tampering. -/
theorem tim3Second_alarm : d.tim3Second.alarm = { d.alarm with
    fcAlmVerifyCnt := countUp 3 d.alarm.fcAlmVerifyCnt
    adcRlxAlmVerifyCnt := fun i => countUp relaxVerifiedTimeS (d.alarm.adcRlxAlmVerifyCnt i) } := by
  rw [tim3Second]
  split_ifs
  · rw [(autoCalibrate_frame 1).2, (autoCalibrate_frame 0).2]
  · rfl

/-- A tick counts the half seconds, and with them or not the seconds. -/
theorem tim3_eq : ∃ e : Dev, e.para = d.para ∧ e.alarm = d.tim3Verify.alarm ∧
    (d.tim3 = e.tim3Second ∨ d.tim3.para = e.para ∧ d.tim3.alarm = e.alarm) := by
  obtain ⟨e, he, hp, ha⟩ : ∃ e : Dev, d.tim3 = (if e.timer.rtcTimeCnt + 1 = 2 then e.tim3Second
      else { e with timer := { e.timer with rtcTimeCnt := e.timer.rtcTimeCnt + 1 } }) ∧
      e.para = d.para ∧ e.alarm = d.tim3Verify.alarm := ⟨_, rfl, rfl, rfl⟩
  refine ⟨e, hp, ha, ?_⟩
  rw [he]
  split_ifs
  · exact Or.inl rfl
  · exact Or.inr ⟨rfl, rfl⟩

theorem tim3_frame : d.tim3.para = d.para ∧ d.tim3.alarm.buFangFlag = d.alarm.buFangFlag ∧
    d.tim3.last f c = d.last f c := by
  obtain ⟨e, hp, ha, h | ⟨hp', ha'⟩⟩ := tim3_eq (d := d)
  · rw [h, last, tim3Second_para, tim3Second_alarm, ha]
    exact ⟨hp, rfl, rfl⟩
  · rw [last, ha', ha]
    exact ⟨hp'.trans hp, rfl, rfl⟩

/-- A tick neither starts nor stops a counter. -/
theorem tim3_verifyCnt (hs : (d.para.alarmSensitivity f).toNat < 255) :
    d.tim3.verifyCnt f c = 0 ↔ d.verifyCnt f c = 0 := by
  obtain ⟨e, -, ha, h | ⟨-, ha'⟩⟩ := tim3_eq (d := d)
  · cases c <;> rw [h, verifyCnt, tim3Second_alarm, ha]
    · exact countUp_eq_zero hs _
    · exact countUp_eq_zero hs _
    · exact countUp_eq_zero (by decide) _
  · cases c <;> rw [verifyCnt, ha', ha]
    · exact countUp_eq_zero hs _
    · exact countUp_eq_zero hs _
    · rfl

/-! ### The law -/

/-- What happens: a check of a zone with the readings of its lines, or a tick of timer 3. -/
inductive CheckOp where
  | check (g : Zone) (r : Readings)
  | tick

def checkStep (d : Dev) : CheckOp → Dev
  | .check g r => d.adcCheckHandler g r
  | .tick => d.tim3

/-- The device together with an observer of one condition: `seen` tells whether every check of the zone
    since the verify counter last left zero has found the condition. -/
structure Observed where
  dev : Dev
  seen : Bool

/-- The observer looks at each check of zone `f`; a check that starts the counter begins anew. -/
def observe (f : Zone) (c : Cond) (s : Observed) (op : CheckOp) : Observed where
  dev := checkStep s.dev op
  seen := match op with
    | .check g r =>
        if g = f then
          if s.dev.verifyCnt f c = 0 ∧ (checkStep s.dev op).verifyCnt f c ≠ 0 then s.dev.finds f c r
          else s.seen && s.dev.finds f c r
        else s.seen
    | .tick => s.seen

/-- The operation sets the alarm bit of the condition. -/
def SetsBit (f : Zone) (c : Cond) (d : Dev) (op : CheckOp) : Prop :=
  d.last f c = false ∧ (checkStep d op).last f c = true

/-- The condition does not vanish while its counter runs and its bit is still clear. -/
def NotVanishing (f : Zone) (c : Cond) (d : Dev) : CheckOp → Prop
  | .check g r => g = f → d.verifyCnt f c ≠ 0 → d.last f c = false → d.finds f c r = true
  | .tick => True

/-- A running counter has seen the condition at every check. -/
def CountsFound (f : Zone) (c : Cond) (s : Observed) : Prop := s.dev.verifyCnt f c ≠ 0 → s.seen = true

theorem checkStep_frame (op : CheckOp) : (checkStep d op).para = d.para ∧
    (checkStep d op).alarm.buFangFlag = d.alarm.buFangFlag := by
  cases op with
  | check g r => exact adcCheckHandler_frame r
  | tick =>
    obtain ⟨hp, ha, -⟩ := tim3_frame (d := d) (f := 0) (c := .rlx)
    exact ⟨hp, ha⟩

/-- The zone is armed, with a sensitivity in the range of the menu. -/
structure Armed (f : Zone) (d : Dev) : Prop where
  on : d.alarm.buFangFlag f = .on
  sensitivity : (d.para.alarmSensitivity f).toNat ≤ 10

theorem Armed.step (h : Armed f d) (op : CheckOp) : Armed f (checkStep d op) := by
  obtain ⟨hp, ha⟩ := checkStep_frame (d := d) op
  exact ⟨by rw [ha, h.on], by rw [hp]; exact h.sensitivity⟩

theorem observe_seen_self {s : Observed} (r : Readings) : (observe f c s (.check f r)).seen =
    if s.dev.verifyCnt f c = 0 ∧ (s.dev.adcCheckHandler f r).verifyCnt f c ≠ 0 then s.dev.finds f c r
    else s.seen && s.dev.finds f c r := if_pos rfl

/-- One operation keeps the law exactly when the condition does not vanish in it. -/
theorem observe_countsFound_iff {s : Observed} (ha : Armed f s.dev) (h : CountsFound f c s)
    (op : CheckOp) : CountsFound f c (observe f c s op) ↔ NotVanishing f c s.dev op := by
  cases op with
  | tick =>
    have hs : (s.dev.para.alarmSensitivity f).toNat < 255 := by have := ha.sensitivity; omega
    exact iff_of_true (fun hne => h (mt (tim3_verifyCnt hs).mpr hne)) trivial
  | check g r =>
    rcases eq_or_ne g f with rfl | hg
    · have hv := adcCheckHandler_verifier (c := c) r ha.on
      have hcnt : (s.dev.adcCheckHandler g r).verifyCnt g c = _ := congrArg Verifier.cnt hv
      rw [CountsFound, observe_seen_self]
      change ((s.dev.adcCheckHandler g r).verifyCnt g c ≠ 0 → _) ↔ (g = g → _)
      cases hf : s.dev.finds g c r with
      | true =>
        refine iff_of_true (fun hne => ?_) (fun _ _ _ => rfl)
        split_ifs with h0
        · rfl
        · rw [Bool.and_true]
          exact h fun hz => h0 ⟨hz, hne⟩
      | false =>
        rw [hf, Verifier.check_absent] at hcnt
        cases hl : s.dev.last g c with
        | true =>
          have hb : (s.dev.verifier g c).bit = true := hl
          rw [if_pos hb] at hcnt
          simp [hcnt]
        | false =>
          have hb : (s.dev.verifier g c).bit = false := hl
          rw [hb, if_neg (by decide)] at hcnt
          rw [hcnt]
          simp [verifier]
    · have hv : (s.dev.adcCheckHandler g r).verifier f c = _ := adcCheckHandler_other r hg.symm
      refine iff_of_true (fun hne => ?_) (fun hgf => absurd hgf hg)
      have hcnt : (s.dev.adcCheckHandler g r).verifyCnt f c = s.dev.verifyCnt f c :=
        congrArg Verifier.cnt hv
      have hseen : (observe f c s (.check g r)).seen = s.seen := if_neg hg
      rw [hseen]
      exact h fun hz => hne (hcnt.trans hz)

/-- The operation that sets the bit leaves the counter running. -/
theorem SetsBit.cnt_ne_zero (ha : Armed f d) {op : CheckOp} (h : SetsBit f c d op) :
    (checkStep d op).verifyCnt f c ≠ 0 := by
  obtain ⟨hl, hl'⟩ := h
  cases op with
  | tick =>
    have htick : d.tim3.last f c = d.last f c := tim3_frame.2.2
    exact absurd (hl'.symm.trans htick) (by simp [hl])
  | check g r =>
    rcases eq_or_ne g f with rfl | hg
    · have hv := adcCheckHandler_verifier (c := c) r ha.on
      have hb : (d.verifier g c).bit = false := hl
      have hbit : _ = true := (congrArg Verifier.bit hv).symm.trans hl'
      have hcnt : (d.adcCheckHandler g r).verifyCnt g c = _ := congrArg Verifier.cnt hv
      cases hf : d.finds g c r with
      | true =>
        rw [hf, Verifier.check_found hb] at hcnt
        rw [checkStep, hcnt]
        exact Verifier.started_ne_zero
      | false =>
        rw [hf, Verifier.check_absent, hb, if_neg (by decide), hb] at hbit
        exact absurd hbit (by decide)
    · have hother : (d.adcCheckHandler g r).last f c = d.last f c :=
        congrArg Verifier.bit (adcCheckHandler_other r hg.symm)
      exact absurd (hl'.symm.trans hother) (by simp [hl])

/-- Over a run from stopped counters, running counters have seen their condition at every check exactly
    when no condition vanishes while its counter runs; and then the bit is set only by an excursion that
    every check since its beginning has found. -/
theorem debounce_law (ops : List CheckOp) {s : Observed} (ha : Armed f s.dev)
    (h0 : s.dev.verifyCnt f c = 0) :
    ((∀ p ∈ Run.steps (observe f c) s ops, CountsFound f c (observe f c p.1 p.2)) ↔
      ∀ p ∈ Run.steps (observe f c) s ops, NotVanishing f c p.1.dev p.2) ∧
    ((∀ p ∈ Run.steps (observe f c) s ops, NotVanishing f c p.1.dev p.2) →
      ∀ p ∈ Run.steps (observe f c) s ops, SetsBit f c p.1.dev p.2 →
        (observe f c p.1 p.2).seen = true) := by
  have harmed : ∀ p ∈ Run.steps (observe f c) s ops, Armed f p.1.dev :=
    Run.steps_inv (fun s => Armed f s.dev) (fun s op h => h.step op) ops s ha
  have hiff : (∀ p ∈ Run.steps (observe f c) s ops,
        Armed f (observe f c p.1 p.2).dev ∧ CountsFound f c (observe f c p.1 p.2)) ↔
      ∀ p ∈ Run.steps (observe f c) s ops, NotVanishing f c p.1.dev p.2 :=
    Run.steps_iff (fun s => Armed f s.dev ∧ CountsFound f c s) (fun s op => NotVanishing f c s.dev op)
    (fun s op hs => (and_iff_right (hs.1.step op)).trans (observe_countsFound_iff hs.1 hs.2 op))
    ops s ⟨ha, fun hne => absurd h0 hne⟩
  have hcounts : (∀ p ∈ Run.steps (observe f c) s ops, CountsFound f c (observe f c p.1 p.2)) ↔
      ∀ p ∈ Run.steps (observe f c) s ops, NotVanishing f c p.1.dev p.2 :=
    Iff.trans ⟨fun h p hp => ⟨(harmed p hp).step p.2, h p hp⟩, fun h p hp => (h p hp).2⟩ hiff
  refine ⟨hcounts, fun hok p hp hset => ?_⟩
  exact hcounts.mpr hok p hp (hset.cnt_ne_zero (harmed p hp))

instance : Decidable (Armed f d) :=
  decidable_of_iff (d.alarm.buFangFlag f = .on ∧ (d.para.alarmSensitivity f).toNat ≤ 10)
    ⟨fun h => ⟨h.1, h.2⟩, fun h => ⟨h.on, h.sensitivity⟩⟩

instance (op : CheckOp) : Decidable (SetsBit f c d op) := by unfold SetsBit; infer_instance

instance : ∀ op, Decidable (NotVanishing f c d op)
  | .check g r => by unfold NotVanishing; infer_instance
  | .tick => by unfold NotVanishing; infer_instance

/-- Every line reads the same value in every sampling round. -/
def level (v : ℕ) : Readings := fun _ _ => v

/-- An intrusion at full scale that stays. -/
def steadyRun : List CheckOp :=
  [.check 0 (level 4095), .tick, .check 0 (level 4095), .tick, .tick, .check 0 (level 4095)]

/-- An intrusion seen once and gone at the next check; the next excursion comes three ticks later. -/
def twoExcursions : List CheckOp :=
  [.check 0 (level 4095), .check 0 (level 600), .tick, .tick, .tick, .check 0 (level 4095)]

/-- The last check of the steady intrusion sets the bit, and all checks have found it. -/
theorem debounce_law_steady : (steadyRun.foldl checkStep blank).last 0 .invd = true ∧
    ∀ p ∈ Run.steps (observe 0 .invd) ⟨blank, true⟩ steadyRun,
      SetsBit 0 .invd p.1.dev p.2 → (observe 0 .invd p.1 p.2).seen = true := by
  have harmed : Armed 0 blank := by decide +kernel
  have hzero : blank.verifyCnt 0 .invd = 0 := by decide +kernel
  have h := debounce_law steadyRun (s := ⟨blank, true⟩) harmed hzero
  exact ⟨by decide +kernel, h.2 (by decide +kernel)⟩

/-- The counter of the first excursion runs on and confirms the second at once. -/
theorem not_debounce_law : ¬ ∀ (f : Zone) (c : Cond) (ops : List CheckOp),
    ∀ p ∈ Run.steps (observe f c) ⟨blank, true⟩ ops,
      SetsBit f c p.1.dev p.2 → (observe f c p.1 p.2).seen = true := by
  intro h
  have := h 0 .invd twoExcursions
  revert this
  decide +kernel

end Dev

end VectorFence
