import VectorFence.Lcd.Editing
import VectorFence.Lib.Run
import VectorFence.Requests

/-! The documented ranges of the zone parameters (`alarm.h`) and what the three front ends do about
    them.

        field_num   0 … 80, 0 for none      alarm_delay   0 … 999      alarm_sensitivity   1 … 10

    The panel keeps its copies in these ranges while they are edited. The other two front ends take what
    they are sent. -/

namespace VectorFence

open FieldPara Tcp Web CStr

def NumOk (v : UInt8) : Prop := v ≤ 80

def DelayOk (v : UInt16) : Prop := v ≤ 999

def SensitivityOk (v : UInt8) : Prop := 1 ≤ v ∧ v ≤ 10

instance (v : UInt8) : Decidable (NumOk v) := by unfold NumOk; infer_instance

instance (v : UInt16) : Decidable (DelayOk v) := by unfold DelayOk; infer_instance

instance (v : UInt8) : Decidable (SensitivityOk v) := by unfold SensitivityOk; infer_instance

/-- The parameters of both zones, or their copies, are in their ranges. -/
def ZonesOk (num : Zone → UInt8) (delay : Zone → UInt16) (sensitivity : Zone → UInt8) : Prop :=
  (∀ i, NumOk (num i)) ∧ (∀ i, DelayOk (delay i)) ∧ ∀ i, SensitivityOk (sensitivity i)

instance (num : Zone → UInt8) (delay : Zone → UInt16) (sensitivity : Zone → UInt8) :
    Decidable (ZonesOk num delay sensitivity) := by unfold ZonesOk; infer_instance

def FieldPara.InRange (p : FieldPara) : Prop := ZonesOk p.fieldNum p.alarmDelay p.alarmSensitivity

instance (p : FieldPara) : Decidable p.InRange := by unfold FieldPara.InRange; infer_instance

/-- The variables and their copy in the EEPROM. -/
def Dev.InRange (d : Dev) : Prop := d.para.InRange ∧ (readFieldParaFromEEProm d.mem).InRange

/-! ### What leaves the zone parameters alone -/

/-- The parameters and the sixteen bytes of their copy are the same. -/
def SameZones (d d' : Dev) : Prop := d'.para = d.para ∧ ∀ x, 0x60 ≤ x → x < 0x70 → d'.mem x = d.mem x

section SameZones

variable {d d' d'' : Dev}

theorem SameZones.refl (d : Dev) : SameZones d d := ⟨rfl, fun _ _ _ => rfl⟩

theorem SameZones.trans (h : SameZones d d') (h' : SameZones d' d'') : SameZones d d'' :=
  ⟨h'.1.trans h.1, fun x h0 h1 => (h'.2 x h0 h1).trans (h.2 x h0 h1)⟩

theorem readFieldPara_congr {m m' : Eeprom} (h : ∀ x, 0x60 ≤ x → x < 0x70 → m x = m' x) :
    readFieldParaFromEEProm m = readFieldParaFromEEProm m' := by
  have hbyte (i : Zone) {j : ℕ} (hj : j < 8) :
      Eeprom.at24cxxReadOneByte m (fieldParaAddr + 8 * i + j) =
        Eeprom.at24cxxReadOneByte m' (fieldParaAddr + 8 * i + j) := by
    have hi := i.isLt
    rw [fieldParaAddr, Eeprom.readOneByte_eq _ (by omega), Eeprom.readOneByte_eq _ (by omega),
      h _ (by omega) (by omega)]
  have hword (i : Zone) {j : ℕ} (hj : j + 1 < 8) :
      readU16 m (fieldParaAddr + 8 * i + j) = readU16 m' (fieldParaAddr + 8 * i + j) := by
    rw [readU16, readU16, hbyte i (by omega), Nat.add_assoc _ j 1, hbyte i hj]
  ext1
  · exact funext fun i => hbyte i (j := 0) (by norm_num)
  · exact funext fun i => hword i (by norm_num)
  · exact funext fun i => hbyte i (by norm_num)
  · funext i k
    rcases zone_cases k with rfl | rfl
    · exact hword i (j := 4) (by norm_num)
    · exact hword i (j := 6) (by norm_num)

theorem SameZones.inRange_iff (h : SameZones d d') : d'.InRange ↔ d.InRange := by
  rw [Dev.InRange, Dev.InRange, h.1, readFieldPara_congr h.2]

theorem sameZones_control (d : Dev) (a : Alarm) :
    SameZones d (Dev.storeControlPara { d with alarm := a }) :=
  ⟨rfl, fun _ h0 _ => Dev.storeControlPara_mem _ (by omega)⟩

theorem sameZones_thresholds (d : Dev) (a : Alarm) :
    SameZones d (Dev.storeAlmThrd { d with alarm := a }) :=
  ⟨rfl, fun _ h0 _ => Dev.storeAlmThrd_mem _ (by omega)⟩

theorem sameZones_range (d : Dev) (v : UInt16) : SameZones d (d.setTensionMaxRange v) :=
  ⟨rfl, fun _ h0 _ => d.setTensionMaxRange_mem v (by omega)⟩

theorem sameZones_time (d : Dev) (v : UInt16) : SameZones d (d.setBaseAutoCalibrateTime v) :=
  ⟨rfl, fun _ h0 _ => d.setBaseAutoCalibrateTime_mem v (by omega)⟩

theorem sameZones_alarm (d : Dev) (a : Alarm) : SameZones d { d with alarm := a } :=
  ⟨rfl, fun _ _ _ => rfl⟩

theorem sameZones_adc (d : Dev) (a : Adc) : SameZones d { d with adc := a } := ⟨rfl, fun _ _ _ => rfl⟩

theorem sameZones_ite {c : Prop} [Decidable c] (h : SameZones d d') :
    SameZones d (if c then d' else d) := by
  split_ifs
  · exact h
  · exact .refl d

/-- What every turn of a loop leaves alone. -/
theorem sameZones_foldl {op : Dev → CStr × CStr → Dev} (h : ∀ d kv, SameZones d (op d kv))
    (params : CgiParams) (d : Dev) : SameZones d (params.foldl op d) :=
  Run.foldl_inv (SameZones d) (fun d' kv hd => hd.trans (h d' kv)) params d (.refl d)

end SameZones

/-! ### Storing -/

/-- The copy is written together with the parameters. -/
theorem storePara_inRange_iff (d : Dev) : d.storePara.InRange ↔ d.para.InRange := by
  rw [Dev.InRange, Dev.storePara, readFieldPara_writeFieldPara, and_self_iff]

theorem getD_iff {β : Type} {P : β → Prop} {b : β} (h : P b) (val : CStr → β) (o : Option CStr) :
    P ((o.map val).getD b) ↔ ∀ v ∈ o, P (val v) := by
  rcases o with _ | v
  · simpa using h
  · simp

/-! ### TCP -/

/-- The values a request carries are in their ranges. -/
def BufOk (buf : List UInt8) : Prop :=
  NumOk (byteAt buf 5) ∧ DelayOk (u16At buf 10) ∧ SensitivityOk (byteAt buf 12)

theorem setParas_inRange_iff {st : Station} {i : Zone} (buf : List UInt8) {f : UInt8}
    (hf : st.dev.zoneOf f = some i) (h : st.dev.InRange) :
    (setParas buf f st).dev.InRange ↔ BufOk buf := by
  obtain ⟨⟨hnum, hdelay, hsens⟩, -⟩ := h
  rw [setParas_dev hf, (sameZones_time _ _).inRange_iff, (sameZones_range _ _).inRange_iff,
    Dev.setAlmThrdDwDif, (sameZones_thresholds _ _).inRange_iff, Dev.setAlmThrdUpDif,
    (sameZones_thresholds _ _).inRange_iff, Dev.setAlarmSensitivity, storePara_inRange_iff]
  exact and_congr (forall_update_iff hnum i _)
    (and_congr (forall_update_iff hdelay _ _) (forall_update_iff hsens _ _))

theorem sameZones_tcp {recvbuf : Netbuf} {p : Panel} (h : ¬Panel.SetsParas recvbuf p.station.dev) :
    SameZones p.station.dev (p.tcp recvbuf).station.dev := by
  have hturn := Panel.tcp_turn h
  generalize p.tcp recvbuf = p' at hturn
  cases hturn with
  | same | reset => exact .refl _
  | arm f sw _ => exact sameZones_control ..
  | shutdown | silence f => exact sameZones_alarm ..

/-! ### Web -/

/-- The last value given for each parameter, cut to its width, is in its range. -/
def ParamsOk (params : CgiParams) : Prop :=
  (∀ i, ∀ v ∈ lastValue (paraName .num i) params, NumOk (u8 v)) ∧
  (∀ i, ∀ v ∈ lastValue (paraName .delay i) params, DelayOk (u16 v)) ∧
  ∀ i, ∀ v ∈ lastValue (paraName .sensitivity i) params, SensitivityOk (u16 v).toUInt8

instance (params : CgiParams) : Decidable (ParamsOk params) := by unfold ParamsOk; infer_instance

theorem setZonePara_inRange_iff {d : Dev} (h : d.InRange) (params : CgiParams) :
    (setZonePara params d).InRange ↔ ParamsOk params := by
  obtain ⟨⟨hnum, hdelay, hsens⟩, -⟩ := h
  rw [setZonePara, storePara_inRange_iff]
  refine and_congr (forall_congr' fun i => ?_)
    (and_congr (forall_congr' fun i => ?_) (forall_congr' fun i => ?_))
  · rw [foldl_fieldNum]
    exact getD_iff (hnum i) _ _
  · rw [foldl_alarmDelay]
    exact getD_iff (hdelay i) _ _
  · rw [foldl_alarmSensitivity]
    exact getD_iff (hsens i) _ _

theorem sameZones_web {params : CgiParams} (h : ¬findCGIParameter "field_num_0" params) (d : Dev) :
    SameZones d (controlCGIHandler params d).1 := by
  rw [controlCGIHandler, if_neg h]
  split_ifs
  · refine sameZones_foldl (fun d kv => ?_) params d
    split_ifs
    · exact sameZones_alarm ..
    · exact sameZones_alarm ..
    · exact .refl d
  · rw [Web.control]
    rcases ctrType params with _ | _ | f
    · exact .refl d
    · exact sameZones_control ..
    · exact sameZones_control ..
  · exact sameZones_foldl (fun d kv => (sameZones_ite (sameZones_thresholds ..)).trans
      (sameZones_ite (sameZones_thresholds ..))) params d
  · exact sameZones_foldl (fun d kv => (sameZones_ite (sameZones_range ..)).trans
      (sameZones_ite (sameZones_time ..))) params d
  · exact sameZones_foldl (fun d kv => sameZones_ite (sameZones_adc ..)) params d
  · exact sameZones_foldl (fun d kv => sameZones_ite (sameZones_adc ..)) params d
  · exact .refl d

/-! ### Keys -/

namespace Panel

open Lcd

variable {p : Panel} {k : Key} {s : Lcd} {f : Zone}

/-- The copies of an open editor are in their ranges. -/
def CopiesOk (t : Temps) : Prop := ZonesOk t.fieldNum t.alarmDelay t.alarmSensitivity

/-- The panel shows the parameters of a zone. -/
def OnZone (s : Lcd) : Prop :=
  s.currentScreen = .setAFangQuParaScreen ∨ s.currentScreen = .setBFangQuParaScreen

/-- ENTER on a zone that is edited. -/
def AcceptsZone (k : Key) (s : Lcd) : Prop := k = .enter ∧ s.flagPageState = .modifyState ∧ OnZone s

theorem acceptZonePara_inRange_iff (p : Panel) :
    p.acceptZonePara.station.dev.InRange ↔ CopiesOk p.temps := by
  change (Dev.storePara _).InRange ↔ _
  rw [storePara_inRange_iff]
  change ZonesOk (Function.update p.temps.fieldNum 0 (p.temps.fieldNum 0))
    (Function.update p.temps.alarmDelay 0 (p.temps.alarmDelay 0)) p.temps.alarmSensitivity ↔ _
  rw [Function.update_eq_self, Function.update_eq_self, CopiesOk]

theorem zoneEditor_accept (hs : s.flagPageState = .modifyState) :
    p.zoneEditor f .enter s = p.acceptZonePara := by
  simp only [zoneEditor, hs]

theorem zoneEditor_station (h : ¬(k = .enter ∧ s.flagPageState = .modifyState)) :
    (p.zoneEditor f k s).station = p.station := by
  unfold zoneEditor
  split
  · rfl
  · rw [openZonePara]
    split_ifs <;> rfl
  · exact absurd ⟨rfl, ‹_›⟩ h
  · split_ifs <;> rfl
  · split_ifs <;> rfl
  · rfl

theorem zoneEffect_accept (h : AcceptsZone k s) : p.zoneEffect k s = p.acceptZonePara := by
  obtain ⟨rfl, hs, hscreen | hscreen⟩ := h
  · simp only [zoneEffect, hscreen, zoneEditor_accept hs]
  · simp only [zoneEffect, hscreen, zoneEditor_accept hs]

theorem zoneEffect_station (h : ¬AcceptsZone k s) : (p.zoneEffect k s).station = p.station := by
  unfold zoneEffect
  split
  · split_ifs <;> rfl
  · rfl
  · rfl
  · exact zoneEditor_station fun ⟨hk, hs⟩ => h ⟨hk, hs, Or.inl ‹_›⟩
  · exact zoneEditor_station fun ⟨hk, hs⟩ => h ⟨hk, hs, Or.inr ‹_›⟩
  · rfl

/-! ### Runs -/

/-- A request that does not break the ranges. -/
def Fits (p : Panel) : Request → Prop
  | .tcp recvbuf => SetsParas recvbuf p.station.dev → BufOk recvbuf.bytes
  | .web params => findCGIParameter "field_num_0" params → ParamsOk params
  | .key e _ k => AcceptsZone k (idleTurn e k p.lcd) → CopiesOk p.temps

theorem zoneTurn_inRange_iff (e : Env) (pins : Fin 2 → Bool) (k : Key) (h : p.station.dev.InRange) :
    (p.zoneTurn e k).station.dev.InRange ↔ p.Fits (.key e pins k) := by
  change (p.zoneEffect k (idleTurn e k p.lcd)).station.dev.InRange ↔ _
  by_cases hacc : AcceptsZone k (idleTurn e k p.lcd)
  · rw [zoneEffect_accept hacc, Fits, imp_iff_right hacc]
    exact p.acceptZonePara_inRange_iff
  · rw [zoneEffect_station hacc]
    exact iff_of_true h fun ha => absurd ha hacc

theorem zoneStep_inRange_iff (r : Request) (h : p.station.dev.InRange) :
    (p.zoneStep r).station.dev.InRange ↔ (p.running → p.Fits r) := by
  unfold zoneStep
  split_ifs with hrun
  · rw [imp_iff_right hrun]
    cases r with
    | tcp recvbuf =>
      change (p.tcp recvbuf).station.dev.InRange ↔ _
      by_cases hset : SetsParas recvbuf p.station.dev
      · obtain ⟨i, hi⟩ := Dev.exists_zoneOf hset.2.2.2
        rw [tcp_setParas hset, Fits, imp_iff_right hset]
        exact setParas_inRange_iff _ hi h
      · exact iff_of_true ((sameZones_tcp hset).inRange_iff.mpr h) fun hs => absurd hs hset
    | web params =>
      by_cases hname : findCGIParameter "field_num_0" params
      · change (controlCGIHandler params p.station.dev).1.InRange ↔ _
        rw [controlCGIHandler, if_pos hname, Fits, imp_iff_right hname]
        exact setZonePara_inRange_iff h params
      · exact iff_of_true ((sameZones_web hname _).inRange_iff.mpr h) fun hn => absurd hn hname
    | key e pins k => exact zoneTurn_inRange_iff e pins k h
  · exact iff_of_true h fun hr => absurd hr hrun

/-- The parameters and their copy stay in their ranges exactly as long as every request fits. -/
theorem run_inRange_iff (p : Panel) (rs : List Request) (h : p.station.dev.InRange) :
    (∀ q ∈ Run.steps zoneStep p rs, (q.1.zoneStep q.2).station.dev.InRange) ↔
      ∀ q ∈ Run.steps zoneStep p rs, q.1.running → q.1.Fits q.2 :=
  Run.steps_iff (fun p => p.station.dev.InRange) (fun p r => p.running → p.Fits r)
    (fun _ r hp => zoneStep_inRange_iff r hp) rs p h

theorem firstStart_inRange : firstStart.station.dev.InRange := (storePara_inRange_iff _).mpr (by decide)

/-- Zone A gets the number 12 and a delay of one minute. -/
def goodParams : CgiParams := [(lit "field_num_0", lit "12"), (lit "alm_dly_0", lit "60")]

theorem run_inRange_goodParams : firstStart.station.dev.InRange ∧
    ∀ q ∈ Run.steps zoneStep firstStart [.web goodParams], (q.1.zoneStep q.2).station.dev.InRange := by
  have hiff := run_inRange_iff firstStart [.web goodParams] firstStart_inRange
  refine ⟨firstStart_inRange, hiff.mpr fun q hq => ?_⟩
  rw [Run.steps, Run.steps, List.mem_singleton] at hq
  rw [hq]
  intro _ _
  decide

/-- Zone A gets the number 200. -/
theorem not_run_inRange : ¬ ∀ (p : Panel) (rs : List Request), p.station.dev.InRange →
    ∀ q ∈ Run.steps zoneStep p rs, (q.1.zoneStep q.2).station.dev.InRange := by
  intro h
  have hlast := h firstStart [.web [(lit "field_num_0", lit "200")]] firstStart_inRange _
    (List.mem_singleton_self _)
  rw [zoneStep_inRange_iff _ firstStart_inRange] at hlast
  exact absurd (hlast rfl (by decide)) (by decide)

/-! ### The copies -/

theorem up8_bounds {last v : UInt8} (h1 : 1 ≤ last) : 1 ≤ up8 last v ∧ up8 last v ≤ last := by
  rw [up8]
  split_ifs
  · grind
  · exact ⟨UInt8.le_refl _, h1⟩

theorem down8_bounds {last v : UInt8} (h1 : 1 ≤ last) (hv : v ≤ last) :
    1 ≤ down8 last v ∧ down8 last v ≤ last := by
  rw [down8]
  split_ifs
  · grind
  · exact ⟨h1, UInt8.le_refl _⟩

theorem up16_le {last v : UInt16} (h1 : 1 ≤ last) : up16 last v ≤ last := by
  rw [up16]
  split_ifs
  · grind
  · exact h1

theorem down16_le {last v : UInt16} (hv : v ≤ last) : down16 last v ≤ last := by
  rw [down16]
  split_ifs
  · grind
  · exact UInt16.le_refl _

/-- Two moves through the values, one for bytes and one for words, that stay in the ranges. -/
structure StaysInRange (move : UInt8 → UInt8 → UInt8) (move' : UInt16 → UInt16 → UInt16) : Prop where
  num : ∀ v, NumOk v → NumOk (move 80 v)
  delay : ∀ v, DelayOk v → DelayOk (move' 999 v)
  sensitivity : ∀ v, SensitivityOk v → SensitivityOk (move 10 v)

theorem staysInRange_up : StaysInRange up8 up16 where
  num _ _ := (up8_bounds (by decide)).2
  delay _ _ := up16_le (by decide)
  sensitivity _ _ := up8_bounds (by decide)

theorem staysInRange_down : StaysInRange down8 down16 where
  num _ hv := (down8_bounds (by decide) hv).2
  delay _ hv := down16_le hv
  sensitivity _ hv := down8_bounds (by decide) hv.2

/-- The copies of the numbers and delays, which every editor puts in place. -/
def NumbersOk (t : Temps) : Prop := (∀ i, NumOk (t.fieldNum i)) ∧ ∀ i, DelayOk (t.alarmDelay i)

variable {move : UInt8 → UInt8 → UInt8} {move' : UInt16 → UInt16 → UInt16} {row : UInt8} {t : Temps}

theorem stepZonePara_numbers (hstay : StaysInRange move move') (h : NumbersOk t) :
    NumbersOk (stepZonePara move move' f row t) := by
  rw [stepZonePara]
  split_ifs
  · exact ⟨(forall_update_iff h.1 f _).mpr (hstay.num _ (h.1 f)), h.2⟩
  · exact ⟨h.1, (forall_update_iff h.2 f _).mpr (hstay.delay _ (h.2 f))⟩
  · exact h
  · exact h

theorem stepZonePara_sensitivity (hstay : StaysInRange move move')
    (h : ∀ i, SensitivityOk (t.alarmSensitivity i)) :
    ∀ i, SensitivityOk ((stepZonePara move move' f row t).alarmSensitivity i) := by
  rw [stepZonePara]
  split_ifs
  · exact h
  · exact h
  · exact (forall_update_iff h f _).mpr (hstay.sensitivity _ (h f))
  · exact h

theorem openZonePara_numbers (hp : p.station.dev.para.InRange) (h : NumbersOk p.temps) :
    NumbersOk (p.openZonePara row).temps := by
  rw [openZonePara]
  split_ifs
  · exact ⟨hp.1, h.2⟩
  · exact ⟨h.1, hp.2.1⟩
  · exact h

theorem openZonePara_sensitivity :
    (p.openZonePara row).temps.alarmSensitivity = p.station.dev.para.alarmSensitivity := by
  rw [openZonePara]
  split_ifs <;> rfl

theorem zoneEditor_numbers (hp : p.station.dev.para.InRange) (h : NumbersOk p.temps) :
    NumbersOk (p.zoneEditor f k s).temps := by
  unfold zoneEditor
  split
  · exact ⟨hp.1, hp.2.1⟩
  · exact openZonePara_numbers hp h
  · exact h
  · split_ifs
    · exact stepZonePara_numbers staysInRange_up h
    · exact h
  · split_ifs
    · exact stepZonePara_numbers staysInRange_down h
    · exact h
  · exact h

theorem zoneEffect_numbers (hp : p.station.dev.para.InRange) (h : NumbersOk p.temps) :
    NumbersOk (p.zoneEffect k s).temps := by
  unfold zoneEffect
  split
  · split_ifs
    · exact ⟨hp.1, hp.2.1⟩
    · exact h
  · exact ⟨hp.1, hp.2.1⟩
  · exact ⟨hp.1, hp.2.1⟩
  · exact zoneEditor_numbers hp h
  · exact zoneEditor_numbers hp h
  · exact h

/-- In an open editor the sensitivities were copied when it was opened. -/
theorem zoneEditor_sensitivity (hp : p.station.dev.para.InRange)
    (h : s.flagPageState = .modifyState → ∀ i, SensitivityOk (p.temps.alarmSensitivity i))
    (hopen : s.flagPageState = .modifyState ∨ s.flagPageState = .normalState ∧ k = .enter) :
    ∀ i, SensitivityOk ((p.zoneEditor f k s).temps.alarmSensitivity i) := by
  rcases hopen with hm | ⟨hn, rfl⟩
  · cases k with
    | up =>
      simp only [zoneEditor, hm]
      split_ifs
      · exact stepZonePara_sensitivity staysInRange_up (h hm)
      · exact h hm
    | down =>
      simp only [zoneEditor, hm]
      split_ifs
      · exact stepZonePara_sensitivity staysInRange_down (h hm)
      · exact h hm
    | _ =>
      simp only [zoneEditor, hm]
      exact h hm
  · simp only [zoneEditor, hn, openZonePara_sensitivity]
    exact hp.2.2

/-- Good parameters, and good copies wherever ENTER would put them in place. -/
structure Sound (p : Panel) : Prop where
  dev : p.station.dev.InRange
  numbers : NumbersOk p.temps
  editor : OnEditor p.lcd
  sensitivity : p.lcd.flagPageState = .modifyState → OnZone p.lcd →
    ∀ i, SensitivityOk (p.temps.alarmSensitivity i)

theorem OnZone.isEditor (h : OnZone s) : isEditor s.currentScreen = true := by
  rcases h with h | h <;> rw [h] <;> rfl

/-- Every edit of the panel fits. -/
theorem Sound.fits (h : Sound p) (e : Env) (pins : Fin 2 → Bool) (k : Key) :
    p.Fits (.key e pins k) := by
  rintro ⟨-, hm, hzone⟩
  rw [idleTurn_page] at hm
  refine ⟨h.numbers.1, h.numbers.2, h.sensitivity hm ?_⟩
  rwa [OnZone, idleTurn_editor e k (h.editor hm)] at hzone

theorem Sound.key (h : Sound p) (e : Env) (pins : Fin 2 → Bool) (k : Key) : Sound (p.zoneTurn e k) where
  dev := (zoneTurn_inRange_iff e pins k h.dev).mpr (h.fits e pins k)
  numbers := zoneEffect_numbers h.dev.1 h.numbers
  editor := by
    intro hm
    obtain ⟨hsame, hed, -⟩ := keyPress_editing e k (h.editor.idleTurn e k) hm
    exact (congrArg isEditor hsame).trans hed
  sensitivity := by
    intro hm hzone
    obtain ⟨hsame, -, hopen⟩ := keyPress_editing e k (h.editor.idleTurn e k) hm
    have hzone' : OnZone (idleTurn e k p.lcd) := by
      rw [OnZone, ← hsame]
      exact hzone
    have hcopies : (idleTurn e k p.lcd).flagPageState = .modifyState →
        ∀ i, SensitivityOk (p.temps.alarmSensitivity i) := by
      intro hm'
      rw [idleTurn_page] at hm'
      rw [OnZone, idleTurn_editor e k (h.editor hm')] at hzone'
      exact h.sensitivity hm' hzone'
    rcases hzone' with hscreen | hscreen
    · simp only [zoneTurn, zoneEffect, hscreen]
      exact zoneEditor_sensitivity h.dev.1 hcopies hopen
    · simp only [zoneTurn, zoneEffect, hscreen]
      exact zoneEditor_sensitivity h.dev.1 hcopies hopen

/-- The request comes over the network. -/
def Sent : Request → Prop
  | .key _ _ _ => False
  | _ => True

theorem zoneStep_panel {r : Request} (hr : Sent r) :
    (p.zoneStep r).temps = p.temps ∧ (p.zoneStep r).lcd = p.lcd := by
  unfold zoneStep
  split_ifs
  · cases r with
    | tcp recvbuf =>
      change (p.tcp recvbuf).temps = _ ∧ (p.tcp recvbuf).lcd = _
      rw [Panel.tcp]
      cases handle recvbuf p.station <;> exact ⟨rfl, rfl⟩
    | web params => exact ⟨rfl, rfl⟩
    | key e pins k => exact absurd hr id
  · exact ⟨rfl, rfl⟩

theorem zoneStep_sound_iff (r : Request) (h : Sound p) :
    Sound (p.zoneStep r) ↔ (p.running → Sent r → p.Fits r) := by
  have hiff := zoneStep_inRange_iff r h.dev
  constructor
  · intro hs hrun _
    exact hiff.mp hs.dev hrun
  · intro hfits
    by_cases hr : Sent r
    · obtain ⟨htemps, hlcd⟩ := zoneStep_panel (p := p) hr
      refine ⟨hiff.mpr fun hrun => hfits hrun hr, ?_, ?_, ?_⟩
      · rw [htemps]
        exact h.numbers
      · rw [hlcd]
        exact h.editor
      · rw [htemps, hlcd]
        exact h.sensitivity
    · cases r with
      | key e pins k =>
        unfold zoneStep
        split_ifs
        · exact h.key e pins k
        · exact h
      | tcp recvbuf | web params => exact absurd trivial hr

/-- From a panel with good copies the keys keep the ranges: it is up to the requests that are sent. -/
theorem run_sound_iff (p : Panel) (rs : List Request) (h : Sound p) :
    (∀ q ∈ Run.steps zoneStep p rs, Sound (q.1.zoneStep q.2)) ↔
      ∀ q ∈ Run.steps zoneStep p rs, q.1.running → Sent q.2 → q.1.Fits q.2 :=
  Run.steps_iff Sound (fun p r => p.running → Sent r → p.Fits r)
    (fun _ r hp => zoneStep_sound_iff r hp) rs p h

end Panel

end VectorFence
