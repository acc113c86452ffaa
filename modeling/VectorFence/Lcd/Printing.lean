import VectorFence.Lcd.Limits

/-! The keys, and runs of all steps. The panel cannot make a text too long for its array: whatever a
    key does, its copies stay in ranges for which there is room, so that ENTER puts such values in
    place. -/

namespace VectorFence

open CStr

/-! ### The copies -/

section Copies

variable {num : Zone → UInt8} {delay : Zone → UInt16} {sensitivity : Zone → UInt8} {t : Temps}

/-- Two moves through the values, one for bytes and one for words, that stay below a last value. -/
structure StaysShort (move : UInt8 → UInt8 → UInt8) (move' : UInt16 → UInt16 → UInt16) : Prop where
  num : ∀ v, v < 100 → move 80 v < 100
  delay : ∀ v, v < 1000 → move' 999 v < 1000
  sensitivity : ∀ v, v < 100 → move 10 v < 100

theorem staysShort_up : StaysShort Panel.up8 Panel.up16 where
  num _ _ := UInt8.lt_of_le_of_lt (Panel.up8_bounds (by decide)).2 (by decide)
  delay _ _ := UInt16.lt_of_le_of_lt (Panel.up16_le (by decide)) (by decide)
  sensitivity _ _ := UInt8.lt_of_le_of_lt (Panel.up8_bounds (by decide)).2 (by decide)

theorem staysShort_down : StaysShort Panel.down8 Panel.down16 where
  num v hv := by
    rw [Panel.down8]
    split_ifs <;> grind
  delay v hv := by
    rw [Panel.down16]
    split_ifs <;> grind
  sensitivity v hv := by
    rw [Panel.down8]
    split_ifs <;> grind

theorem stepZonePara_short {move : UInt8 → UInt8 → UInt8} {move' : UInt16 → UInt16 → UInt16}
    (hstay : StaysShort move move') (h : t.Short) (f : Zone) (row : UInt8) :
    (Panel.stepZonePara move move' f row t).Short := by
  rw [Panel.stepZonePara]
  split_ifs
  · exact { h with paras := h.paras.setNum f (hstay.num _ (h.paras.num f)) }
  · exact { h with paras := h.paras.setDelay f (hstay.delay _ (h.paras.delay f)) }
  · exact { h with paras := h.paras.setSensitivity f (hstay.sensitivity _ (h.paras.sensitivity f)) }
  · exact h

/-- The digits of a threshold are stepped one by one. -/
theorem upThreshold_lt (fx : ℤ) {v : UInt16} (hv : v < 1000) : Panel.upThreshold fx v < 1000 := by
  rw [Panel.upThreshold]
  split_ifs <;> grind

theorem downThreshold_lt (fx : ℤ) {v : UInt16} (hv : v < 1000) : Panel.downThreshold fx v < 1000 := by
  rw [Panel.downThreshold]
  split_ifs <;> grind

theorem stepThreshold_short {digit : ℤ → UInt16 → UInt16}
    (hdigit : ∀ fx v, v < 1000 → digit fx v < 1000)
    (h : t.Short) (s : Lcd) : (Panel.stepThreshold digit s t).Short := by
  rw [Panel.stepThreshold]
  split_ifs
  · exact { h with up := hdigit _ _ h.up }
  · exact { h with down := hdigit _ _ h.down }
  · exact h

theorem isDigit_upDigit {last c : UInt8} (hlast : isDigit last = true) (hc : isDigit c = true) :
    isDigit (Panel.upDigit last c) = true := by
  rw [isDigit_iff] at hlast hc
  rw [Panel.upDigit]
  split_ifs with h
  · rfl
  · rw [isDigit_iff]
    simp only [gt_iff_lt, UInt8.lt_iff_toNat_lt, UInt8.toNat_add, UInt8.reduceToNat] at h ⊢
    omega

theorem isDigit_downDigit {last c : UInt8} (hlast : isDigit last = true) (hc : isDigit c = true) :
    isDigit (Panel.downDigit last c) = true := by
  rw [Panel.downDigit]
  split_ifs with h
  · exact hlast
  · rw [isDigit_iff] at hc ⊢
    simp only [UInt8.lt_iff_toNat_lt, UInt8.toNat_sub, UInt8.reduceToNat] at h ⊢
    omega

theorem forall_mem_modify {P : UInt8 → Prop} {f : UInt8 → UInt8} (hf : ∀ c, P c → P (f c))
    (i : ℕ) {s : CStr}
    (h : ∀ c ∈ s, P c) : ∀ c ∈ s.modify i f, P c := by
  induction s generalizing i with
  | nil => simp
  | cons c s ih =>
    rw [List.forall_mem_cons] at h
    cases i with
    | zero =>
      rw [List.modify_zero_cons, List.forall_mem_cons]
      exact ⟨hf c h.1, h.2⟩
    | succ i =>
      rw [List.modify_succ_cons, List.forall_mem_cons]
      exact ⟨h.1, ih i h.2⟩

theorem stepDigit_short {move : UInt8 → UInt8 → UInt8}
    (hmove : ∀ last c, isDigit last = true → isDigit c = true → isDigit (move last c) = true)
    (h : t.Short)
    (n fx : ℤ) : Temps.Short { t with tensionMaxRange := Panel.stepDigit move n 49 fx t.tensionMaxRange } := by
  refine { h with length := ?_, digits := ?_ }
  · change (Panel.stepDigit move n 49 fx t.tensionMaxRange).length ≤ 3
    rw [Panel.stepDigit]
    split_ifs
    · rw [List.length_modify]
      exact h.length
    · rw [List.length_modify]
      exact h.length
    · exact h.length
  · change ∀ c ∈ Panel.stepDigit move n 49 fx t.tensionMaxRange, isDigit c = true
    rw [Panel.stepDigit]
    split_ifs
    · exact forall_mem_modify (fun c => hmove 49 c rfl) _ h.digits
    · exact forall_mem_modify (fun c => hmove 57 c rfl) _ h.digits
    · exact h.digits

end Copies

/-! ### Keys -/

namespace Panel.Short

variable {p : Panel} {k : Key} {s : Lcd}

theorem copyZonePara (h : p.Short) : p.copyZonePara.Short :=
  ⟨h.dev, { h.temps with paras := ⟨h.dev.paras.num, h.dev.paras.delay, h.temps.paras.sensitivity⟩ }⟩

theorem openZonePara (h : p.Short) (row : UInt8) : (p.openZonePara row).Short := by
  obtain ⟨hnum, hdelay, hsens⟩ := h.dev.paras
  rw [Panel.openZonePara]
  split_ifs
  · exact ⟨h.dev, { h.temps with paras := ⟨hnum, h.temps.paras.delay, hsens⟩ }⟩
  · exact ⟨h.dev, { h.temps with paras := ⟨h.temps.paras.num, hdelay, hsens⟩ }⟩
  · exact ⟨h.dev, { h.temps with paras := ⟨h.temps.paras.num, h.temps.paras.delay, hsens⟩ }⟩

theorem acceptZonePara (h : p.Short) : p.acceptZonePara.Short :=
  have hput : Dev.Short { p.station.dev with para := { p.station.dev.para with
      fieldNum := p.temps.fieldNum
      alarmDelay := p.temps.alarmDelay
      alarmSensitivity := p.temps.alarmSensitivity } } := { h.dev with paras := h.temps.paras }
  ⟨((hput.setFieldNum 0 (h.temps.paras.num 0)).setAlarmDelay 0 (h.temps.paras.delay 0)).storePara,
    h.temps⟩

theorem zoneEditor (h : p.Short) (f : Zone) (k : Key) (s : Lcd) : (p.zoneEditor f k s).Short := by
  unfold Panel.zoneEditor
  split
  · exact h.copyZonePara
  · exact h.openZonePara _
  · exact h.acceptZonePara
  · split_ifs
    · exact ⟨h.dev, stepZonePara_short staysShort_up h.temps f _⟩
    · exact h
  · split_ifs
    · exact ⟨h.dev, stepZonePara_short staysShort_down h.temps f _⟩
    · exact h
  · exact h

theorem zoneEffect (h : p.Short) (k : Key) (s : Lcd) : (p.zoneEffect k s).Short := by
  unfold Panel.zoneEffect
  split
  · split_ifs
    · exact h.copyZonePara
    · exact h
  · exact h.copyZonePara
  · exact h.copyZonePara
  · exact h.zoneEditor ..
  · exact h.zoneEditor ..
  · exact h

theorem acceptArming (h : p.Short) : p.acceptArming.Short := by
  refine ⟨?_, h.temps⟩
  simp only [Panel.acceptArming, onDev, Station.onDev]
  have hpush (d : Dev) (f : Zone) (hd : d.Short) : Dev.Short
      (if d.alarm.buFangFlag f ≠ p.temps.buFangFlag f then d.push f (p.temps.buFangFlag f) else d) :=
    hd.ite fun _ => hd.push f _
  exact hpush _ 1 (hpush _ 0 (h.dev.ite fun _ => h.dev.fangChai _))

theorem armingEditor (h : p.Short) (k : Key) (s : Lcd) : (p.armingEditor k s).Short := by
  have hstep : (stepArming s p.temps).Short := by
    rw [stepArming]
    split_ifs <;> exact { h.temps with }
  unfold Panel.armingEditor
  split
  · exact ⟨h.dev, { h.temps with }⟩
  · exact ⟨h.dev, { h.temps with }⟩
  · exact h.acceptArming
  · exact ⟨h.dev, hstep⟩
  · exact ⟨h.dev, hstep⟩
  · exact h

theorem acceptThreshold (h : p.Short) : p.acceptThreshold.Short :=
  have hput : Dev.Short { p.station.dev with alarm := { p.station.dev.alarm with
      alarmThresholdUpDif := p.temps.alarmThresholdUpDif
      alarmThresholdDownDif := p.temps.alarmThresholdDownDif } } :=
    { h.dev with up := h.temps.up, down := h.temps.down }
  ⟨(hput.setAlmThrdUpDif h.temps.up).setAlmThrdDwDif h.temps.down, h.temps⟩

theorem thresholdEditor (h : p.Short) (k : Key) (s : Lcd) : (p.thresholdEditor k s).Short := by
  unfold Panel.thresholdEditor
  split
  · rw [openThreshold]
    split_ifs
    · exact ⟨h.dev, { h.temps with up := h.dev.up }⟩
    · exact ⟨h.dev, { h.temps with down := h.dev.down }⟩
    · exact h
  · exact ⟨h.dev, { h.temps with up := h.dev.up, down := h.dev.down }⟩
  · exact h.acceptThreshold
  · exact ⟨h.dev, stepThreshold_short (fun fx _ => upThreshold_lt fx) h.temps s⟩
  · exact ⟨h.dev, stepThreshold_short (fun fx _ => downThreshold_lt fx) h.temps s⟩
  · exact h

theorem updateSWAlarmState {st : Station} (pins : Fin 2 → Bool) (i : Fin 2) (h : st.dev.Short) :
    (st.updateSWAlarmState pins i).dev.Short := by
  rw [Station.updateSWAlarmState]
  split_ifs <;> exact { h with }

theorem setSWValue {st : Station} (h : st.dev.Short) (pins : Fin 2 → Bool) (sw1 sw2 : Int8) :
    (st.setSWValue pins sw1 sw2).dev.Short := by
  have htypes : Dev.Short (Station.dev { st with swType := ![sw1, sw2] }) := h
  exact { updateSWAlarmState pins 0 (updateSWAlarmState pins 1 htypes) with }

theorem swTypeEditor (h : p.Short) (pins : Fin 2 → Bool) (k : Key) (s : Lcd) :
    (p.swTypeEditor pins k s).Short := by
  have hstep (next : Int8 → Int8) (row : UInt8) : (p.stepSwType next row).Short := by
    rw [stepSwType]
    split_ifs <;> exact ⟨h.dev, h.temps⟩
  unfold Panel.swTypeEditor
  split
  · exact ⟨setSWValue h.dev .., h.temps⟩
  · exact hstep ..
  · exact hstep ..
  · exact h

theorem fullScaleEditor (h : p.Short) (k : Key) (s : Lcd) : (p.fullScaleEditor k s).Short := by
  cases k with
  | enter =>
    have hlt := (digits_lt h.temps.digits).trans_le (Nat.pow_le_pow_right (by norm_num) h.temps.length)
    have hatoi : atoi p.temps.tensionMaxRange = digits p.temps.tensionMaxRange := by
      rw [atoi_of_isDigit h.temps.digits, clampInt_of_bounds (by omega) (by omega)]
    refine ⟨h.dev.setTensionMaxRange ?_, h.temps⟩
    have hval : (UInt16.ofInt (atoi p.temps.tensionMaxRange * 10)).toNat =
      digits p.temps.tensionMaxRange * 10 := by
      rw [hatoi, UInt16.ofInt, UInt16.toNat_ofNat']
      omega
    rw [UInt16.lt_iff_toNat_lt, hval]
    change _ < 10000
    omega
  | up => exact ⟨h.dev, stepDigit_short (fun _ _ => isDigit_upDigit) h.temps 3 _⟩
  | down => exact ⟨h.dev, stepDigit_short (fun _ _ => isDigit_downDigit) h.temps 3 _⟩
  | _ => exact h

theorem calibrateTimeEditor (h : p.Short) (k : Key) (s : Lcd) : (p.calibrateTimeEditor k s).Short := by
  cases k with
  | enter => exact ⟨h.dev.setBaseAutoCalibrateTime _, h.temps⟩
  | up => exact ⟨h.dev, { h.temps with }⟩
  | down => exact ⟨h.dev, { h.temps with }⟩
  | _ => exact h

theorem enterSetMenu (h : p.Short) (row : UInt8) : (p.enterSetMenu row).Short := by
  rw [Panel.enterSetMenu]
  split_ifs
  · refine ⟨h.dev, { h.temps with length := ?_, digits := isDigit_of_mem_dec _ _ }⟩
    have hrange := UInt16.lt_iff_toNat_lt.mp h.dev.range
    change p.station.dev.adc.tensionMaxRange.toNat < 10000 at hrange
    refine (length_dec_le (by norm_num) le_rfl).mpr ?_
    omega
  · exact ⟨h.dev, { h.temps with }⟩
  · exact h

theorem silence (h : p.Short) (k : Key) : (p.silence k).Short := by
  cases k with
  | left => exact ⟨h.dev.resetSiren 0, h.temps⟩
  | right => exact ⟨h.dev.resetSiren 1, h.temps⟩
  | _ => exact h

theorem enterRows (h : p.Short) {ops : List (Dev → Dev)}
    (hops : ∀ op ∈ ops, ∀ d : Dev, d.Short → (op d).Short)
    (row : UInt8) : (p.enterRows ops row).Short := by
  rw [Panel.enterRows]
  rcases hop : Lcd.choice ops row with _ | op
  · exact h
  · exact ⟨hops op (Lcd.choice_mem hop) _ h.dev, h.temps⟩

theorem datumRow (e : Env) (f : Zone) (d : Dev) (hd : d.Short) : (Panel.datumRow e f d).Short := by
  rw [Panel.datumRow]
  split_ifs
  · exact hd
  · exact hd.request _

theorem otherEffect (h : p.Short) (e : Env) (pins : Fin 2 → Bool) (k : Key) (s : Lcd) :
    (p.otherEffect e pins k s).Short := by
  have hclear (t : LogType) (d : Dev) (hd : d.Short) : (d.clearLog t).Short := hd.clearLog t
  have hzero (f : Zone) (d : Dev) (hd : d.Short) : (d.updateZeroVal f).Short := hd.request _
  unfold Panel.otherEffect
  split
  · exact h.silence _
  · split_ifs
    · exact h
    · exact h.silence _
  · exact h.enterSetMenu _
  · exact h.armingEditor ..
  · exact h.thresholdEditor ..
  · exact h.enterRows (by simp +contextual [hclear]) _
  · exact h.enterRows (by simp +contextual [hclear]) _
  · exact h.enterRows (by simp +contextual [hclear]) _
  · exact h.enterRows (by simp +contextual [hzero]) _
  · exact h.enterRows (by simp +contextual [datumRow]) _
  · exact h.swTypeEditor ..
  · exact h.fullScaleEditor ..
  · exact h.calibrateTimeEditor ..
  · exact ⟨h.dev, h.temps⟩
  · exact ⟨h.dev, h.temps⟩
  · exact ⟨h.dev, h.temps⟩
  · exact h

theorem turn (h : p.Short) (e : Env) (pins : Fin 2 → Bool) (k : Key) : (p.turn e pins k).Short := by
  have heffect := (h.zoneEffect k (Lcd.idleTurn e k p.lcd)).otherEffect e pins k
    (Lcd.idleTurn e k p.lcd)
  exact ⟨heffect.dev, heffect.temps⟩

end Panel.Short

/-! ### Runs -/

/-- The device with its panel and the variables of TIM4. -/
structure Timed where
  panel : Panel
  adcCalibrateCnt : ℤ
  alarmCheckCnt : ℤ

namespace Timed

/-- Requests and keys, and what calibrates. -/
inductive Event where
  | request (r : Request)
  | calib (op : Calib.Op)

def calib (s : Timed) : Calib := ⟨s.panel.station.dev, s.adcCalibrateCnt, s.alarmCheckCnt⟩

/-- A reset ends the run. -/
def step (s : Timed) : Event → Timed
  | .request r => { s with panel := s.panel.step r }
  | .calib op =>
    if s.panel.running then
      let c := s.calib.step op
      ⟨s.panel.onDev fun _ => c.dev, c.adcCalibrateCnt, c.alarmCheckCnt⟩
    else s

/-- The values that the step brings have room; a key brings none. -/
def Carries (s : Timed) : Event → Prop
  | .request (.tcp recvbuf) => Panel.SetsParas recvbuf s.panel.station.dev → BufShort recvbuf.bytes
  | .request (.web params) => ParamsShort params
  | .request (.key _ _ _) => True
  | .calib (.calibrating _) => Watched.Completing s.panel.station.dev → MeanShort s.panel.station.dev
  | .calib _ => True

variable {s : Timed}

theorem step_short (e : Event) (h : s.panel.Short) (hok : s.panel.running → s.Carries e) :
    (s.step e).panel.Short := by
  cases e with
  | request r =>
    change (s.panel.step r).Short
    unfold Panel.step
    split_ifs with hrun
    · cases r with
      | tcp recvbuf => exact h.tcp (hok hrun)
      | web params => exact ⟨controlCGIHandler_short h.dev (hok hrun), h.temps⟩
      | key e pins k => exact h.turn e pins k
    · exact h
  | calib op =>
    rw [step]
    split_ifs with hrun
    · refine ⟨calib_short (s := s.calib) h.dev fun r hop => ?_, h.temps⟩
      subst hop
      exact hok hrun
    · exact h

theorem step_fits (e : Event) (h : s.panel.Short) (hok : s.panel.running → s.Carries e) {d : Drawing}
    (hd : d.Roomy) (fieldFlagS0D1 : Bool) (l : Lcd) :
    d.Fits fieldFlagS0D1 { (s.step e).panel with lcd := l } := by
  have hshort : Panel.Short { (s.step e).panel with lcd := l } :=
    ⟨(step_short e h hok).dev, (step_short e h hok).temps⟩
  exact d.fits_iff.mpr (Drawing.ok_of_short hshort hd)

/-- What a screen prints fits exactly for the values that `Ok` tells. In a run whose steps bring
    only values that have room it does on every screen with an array of more than a byte, whatever
    row and page it shows. -/
theorem runs_fit (fieldFlagS0D1 : Bool) (s : Timed) (es : List Event) :
    (∀ p (d : Drawing), d.Fits fieldFlagS0D1 p ↔ d.Ok fieldFlagS0D1 p) ∧
    (s.panel.Short → (∀ q ∈ Run.steps step s es, q.1.panel.running → q.1.Carries q.2) →
      ∀ q ∈ Run.steps step s es, ∀ d : Drawing, d.Roomy → ∀ l : Lcd,
        d.Fits fieldFlagS0D1 { (q.1.step q.2).panel with lcd := l }) := by
  refine ⟨fun _ d => d.fits_iff, fun h hok q hq d hd l => ?_⟩
  have hinv : ∀ q ∈ Run.steps step s es, q.1.panel.Short :=
    Run.steps_inv_of_steps (fun s : Timed => s.panel.Short) (fun _ e hs he =>
      step_short e hs he) es s h hok
  exact step_fits q.2 (hinv q hq) (hok q hq) hd fieldFlagS0D1 l

/-- The first start, with the counters of TIM4 cleared. -/
def firstStart : Timed := ⟨Panel.firstStart, 0, 0⟩

theorem firstStart_short : firstStart.panel.Short where
  dev := {
    paras := ⟨by decide, by decide, by decide⟩
    tension := by decide
    up := by decide
    down := by decide
    zero := by decide
    base := by decide
    range := by decide }
  temps := {
    paras := ⟨by decide, by decide, by decide⟩
    up := by decide
    down := by decide
    length := Nat.zero_le _
    digits := fun _ hc => absurd hc List.not_mem_nil }

theorem runs_fit_goodParams : firstStart.panel.Short ∧
    (∀ q ∈ Run.steps step firstStart [.request (.web Panel.goodParams)], q.1.panel.running →
    q.1.Carries q.2) ∧
    ∀ q ∈ Run.steps step firstStart [.request (.web Panel.goodParams)], ∀ d : Drawing, d.Roomy →
      ∀ l : Lcd, d.Fits false { (q.1.step q.2).panel with lcd := l } := by
  have hok : ∀ q ∈ Run.steps step firstStart [.request (.web Panel.goodParams)],
      q.1.panel.running → q.1.Carries q.2 := by
    intro q hq
    rw [Run.steps, Run.steps, List.mem_singleton] at hq
    subst hq
    intro _
    change ParamsShort Panel.goodParams
    decide
  exact ⟨firstStart_short, hok, (runs_fit false _ _).2 firstStart_short hok⟩

/-- Zone A gets a delay of 1000 seconds. -/
def longDelay : CgiParams := [(lit "field_num_0", lit "1"), (lit "alm_dly_0", lit "1000")]

/-- `gaojingyanshi[4]` gets five bytes. -/
theorem not_runs_fit : ¬ ∀ (s : Timed) (es : List Event), s.panel.Short →
    ∀ q ∈ Run.steps step s es, ∀ (d : Drawing) (fieldFlagS0D1 : Bool),
      d.Fits fieldFlagS0D1 (q.1.step q.2).panel := by
  intro h
  have hlast := h firstStart [.request (.web longDelay)] firstStart_short _ (List.mem_singleton_self _)
    (.setFangQuPara 0) false
  rw [Drawing.fits_iff] at hlast
  exact absurd (hlast _ rfl).2.1 (by decide)

end Timed

end VectorFence
