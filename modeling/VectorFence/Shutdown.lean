import VectorFence.ZoneRanges

/-! The remote shutdown: all flags are switched off, and the control byte in the EEPROM keeps what
    they were for the next start.

        0x54 ──ReadControlParaFromEEProm──▶ flags ──shutdown──▶ off            0x54 unchanged
                                              ▲
        TCP (held up by a shutdown), web, panel, each with a write to 0x54 -/

namespace VectorFence

open Eeprom Log

/-- `ON` for a bit that is set. -/
def Switch.ofBit (b : Bool) : Switch := if b then .on else .off

namespace Dev

/-- The control byte in the EEPROM. -/
def storedControl (d : Dev) : UInt8 := at24cxxReadOneByte d.mem controlParaAddr

/-- `ReadControlParaFromEEProm()`. -/
def readControlPara (d : Dev) : Dev :=
  { d with
    alarm := { d.alarm with
      flagFcgjsn := .ofBit (d.storedControl.toBitVec.getLsbD 2)
      buFangFlag :=
        ![.ofBit (d.storedControl.toBitVec.getLsbD 0), .ofBit (d.storedControl.toBitVec.getLsbD 1)] } }

/-- The part of `ALARM_Init` for the control byte; a device with a single zone never arms zone B. -/
def initControlPara (fieldFlagS0D1 : Bool) (d : Dev) : Dev :=
  let single := if fieldFlagS0D1 then Switch.off else .on
  if d.storedControl = 0xFF then
    storeControlPara
      { d with alarm := { d.alarm with flagFcgjsn := .on, buFangFlag := ![.on, single] } }
  else
    let d := d.readControlPara
    if fieldFlagS0D1 then
      { d with alarm := { d.alarm with buFangFlag := Function.update d.alarm.buFangFlag 1 .off } }
    else d

theorem storedControl_eq (d : Dev) : d.storedControl = d.mem 0x54 := readOneByte_eq _ (by decide)

theorem storedControl_storeControlPara (d : Dev) :
    d.storeControlPara.storedControl = d.controlPara := by
  rw [storedControl_eq]
  exact (writeOneByte_apply d.mem (a := 0x54) (by decide) _ _).trans (if_pos rfl)

/-- The control byte for three flags. -/
def controlByte (fc a b : Switch) : UInt8 := fc.bit <<< 2 ||| b.bit <<< 1 ||| a.bit

theorem controlPara_eq (d : Dev) :
    d.controlPara = controlByte d.alarm.flagFcgjsn (d.alarm.buFangFlag 0) (d.alarm.buFangFlag 1) := rfl

/-- The byte tells the flags. -/
theorem controlByte_bits (fc a b : Switch) : controlByte fc a b ≠ 0xFF ∧
    Switch.ofBit ((controlByte fc a b).toBitVec.getLsbD 2) = fc ∧
    Switch.ofBit ((controlByte fc a b).toBitVec.getLsbD 0) = a ∧
    Switch.ofBit ((controlByte fc a b).toBitVec.getLsbD 1) = b := by
  cases fc <;> cases a <;> cases b <;> decide

/-- The next start finds the flags that were stored. -/
theorem initControlPara_flags {d d' : Dev} {fieldFlagS0D1 : Bool} (h : d'.storedControl = d.controlPara)
    (hsingle : fieldFlagS0D1 → d.alarm.buFangFlag 1 = .off) :
    (d'.initControlPara fieldFlagS0D1).alarm.flagFcgjsn = d.alarm.flagFcgjsn ∧
      (d'.initControlPara fieldFlagS0D1).alarm.buFangFlag = d.alarm.buFangFlag := by
  obtain ⟨hff, h2, h0, h1⟩ :=
    controlByte_bits d.alarm.flagFcgjsn (d.alarm.buFangFlag 0) (d.alarm.buFangFlag 1)
  rw [← controlPara_eq, ← h] at hff h2 h0 h1
  simp only [initControlPara, if_neg hff, readControlPara]
  split_ifs with hs
  · refine ⟨h2, funext fun i => ?_⟩
    rcases zone_cases i with rfl | rfl
    · exact h0
    · exact (hsingle hs).symm
  · refine ⟨h2, funext fun i => ?_⟩
    rcases zone_cases i with rfl | rfl
    · exact h0
    · exact h1

/-- Nothing is armed, and the control byte is `b`. -/
structure InForce (b : UInt8) (d : Dev) : Prop where
  flagFcgjsn : d.alarm.flagFcgjsn = .off
  buFangFlag : ∀ f, d.alarm.buFangFlag f = .off
  stored : d.storedControl = b

/-- The device was shut down, and its logs are in order. -/
structure WasShut (d : Dev) : Prop where
  remote : d.alarm.remoteShutdown = true
  pointers : PointersOk d.mem d.log

end Dev

/-! ### What leaves a shutdown in force -/

open Dev

/-- A change that leaves a device shut down, and the shutdown in force. -/
structure KeepsShut (d d' : Dev) : Prop where
  wasShut : d.WasShut → d'.WasShut
  inForce : d.WasShut → ∀ b, d.InForce b → d'.InForce b

section KeepsShut

variable {d d' d'' : Dev}

theorem KeepsShut.refl (d : Dev) : KeepsShut d d := ⟨id, fun _ _ => id⟩

theorem KeepsShut.trans (h : KeepsShut d d') (h' : KeepsShut d' d'') : KeepsShut d d'' :=
  ⟨fun hd => h'.wasShut (h.wasShut hd),
    fun hd b hb => h'.inForce (h.wasShut hd) b (h.inForce hd b hb)⟩

theorem KeepsShut.ite {c : Prop} [Decidable c] (h : KeepsShut d d') :
    KeepsShut d (if c then d' else d) := by
  split_ifs
  · exact h
  · exact .refl d

theorem KeepsShut.foldl {op : Dev → CStr × CStr → Dev} (h : ∀ d kv, KeepsShut d (op d kv))
    (params : CgiParams) (d : Dev) : KeepsShut d (params.foldl op d) :=
  Run.foldl_inv (KeepsShut d) (fun d' kv hd => hd.trans (h d' kv)) params d (.refl d)

/-- Neither the flags nor the control byte nor the logs are touched. -/
theorem keepsShut_of_frame (hremote : d'.alarm.remoteShutdown = d.alarm.remoteShutdown)
    (hfc : d'.alarm.flagFcgjsn = d.alarm.flagFcgjsn) (hbf : d'.alarm.buFangFlag = d.alarm.buFangFlag)
    (hlog : d'.log = d.log) (hmem : ∀ x, x = 0x54 ∨ 0xE0 ≤ x → d'.mem x = d.mem x) :
    KeepsShut d d' := by
  refine ⟨fun h => ⟨hremote.trans h.remote, ?_⟩, fun h b hb => ⟨hfc.trans hb.flagFcgjsn, ?_, ?_⟩⟩
  · rw [hlog]
    exact h.pointers.congr fun x hx _ => hmem x (Or.inr hx)
  · rw [hbf]
    exact hb.buFangFlag
  · rw [← hb.stored, storedControl_eq, storedControl_eq, hmem _ (Or.inl rfl)]

theorem keepsShut_para (d : Dev) (p : FieldPara) : KeepsShut d (storePara { d with para := p }) :=
  keepsShut_of_frame rfl rfl rfl rfl fun _ hx => storePara_mem _ (by omega)

theorem keepsShut_range (d : Dev) (v : UInt16) : KeepsShut d (d.setTensionMaxRange v) :=
  keepsShut_of_frame rfl rfl rfl rfl fun _ hx => d.setTensionMaxRange_mem v (by omega)

theorem keepsShut_time (d : Dev) (v : UInt16) : KeepsShut d (d.setBaseAutoCalibrateTime v) :=
  keepsShut_of_frame rfl rfl rfl rfl fun _ hx => d.setBaseAutoCalibrateTime_mem v (by omega)

theorem keepsShut_up (d : Dev) (v : UInt16) : KeepsShut d (d.setAlmThrdUpDif v) :=
  keepsShut_of_frame rfl rfl rfl rfl fun _ hx => storeAlmThrd_mem _ (by omega)

theorem keepsShut_down (d : Dev) (v : UInt16) : KeepsShut d (d.setAlmThrdDwDif v) :=
  keepsShut_of_frame rfl rfl rfl rfl fun _ hx => storeAlmThrd_mem _ (by omega)

theorem keepsShut_adc (d : Dev) (a : Adc) : KeepsShut d { d with adc := a } :=
  keepsShut_of_frame rfl rfl rfl rfl fun _ _ => rfl

theorem keepsShut_resetSiren (d : Dev) (f : Zone) : KeepsShut d (d.resetSiren f) :=
  keepsShut_of_frame rfl rfl rfl rfl fun _ _ => rfl

theorem keepsShut_clearLog (d : Dev) (t : LogType) : KeepsShut d (d.clearLog t) := by
  have hclear (h : d.WasShut) := h.pointers.fastClearLog t
  simp only [Dev.clearLog]
  generalize Log.fastClearLog d.mem d.log t = r at hclear
  refine ⟨fun h => ⟨h.remote, (hclear h).1⟩, fun h b hb => ⟨hb.flagFcgjsn, hb.buFangFlag, ?_⟩⟩
  rw [← hb.stored, storedControl_eq, storedControl_eq]
  exact (hclear h).2 _ (by norm_num)

/-- Shutting down once more changes nothing. -/
theorem keepsShut_shutdown (d : Dev) : KeepsShut d d.shutdown :=
  ⟨fun h => ⟨rfl, h.pointers⟩, fun _ _ hb => ⟨rfl, fun _ => rfl, hb.stored⟩⟩

end KeepsShut

/-! ### Switching -/

section Switching

variable {d : Dev} {b : UInt8}

theorem Dev.WasShut.store (h : d.WasShut) {a : Alarm} (ha : a.remoteShutdown = d.alarm.remoteShutdown) :
    (storeControlPara { d with alarm := a }).WasShut :=
  ⟨ha.trans h.remote, h.pointers.congr fun _ hx _ => storeControlPara_mem _ (by omega)⟩

/-- Storing the control byte keeps it only if it was zero. -/
theorem inForce_store_iff (d : Dev) (b : UInt8) : d.storeControlPara.InForce b ↔
    d.alarm.flagFcgjsn = .off ∧ (∀ f, d.alarm.buFangFlag f = .off) ∧ b = 0 := by
  have hstored := storedControl_storeControlPara d
  constructor
  · rintro ⟨hfc, hbf, hb⟩
    refine ⟨hfc, hbf, ?_⟩
    have hfc' : d.alarm.flagFcgjsn = .off := hfc
    have hbf' (f : Zone) : d.alarm.buFangFlag f = .off := hbf f
    rw [← hb, hstored, controlPara_eq, hfc', hbf', hbf']
    rfl
  · rintro ⟨hfc, hbf, rfl⟩
    refine ⟨hfc, hbf, ?_⟩
    rw [hstored, controlPara_eq, hfc, hbf, hbf]
    rfl

theorem push_inForce_iff (h : d.InForce b) (f : Zone) (sw : Switch) :
    (d.push f sw).InForce b ↔ sw = .off ∧ b = 0 := by
  have hflags := forall_update_iff (P := fun x => x = Switch.off) h.buFangFlag f sw
  rw [push, inForce_store_iff, and_iff_right h.flagFcgjsn]
  exact and_congr_left fun _ => hflags

theorem fangChai_inForce_iff (h : d.InForce b) (sw : Switch) :
    (d.fangChai sw).InForce b ↔ sw = .off ∧ b = 0 := by
  rw [fangChai, inForce_store_iff]
  exact and_congr_right fun _ => and_iff_right h.buFangFlag

end Switching

/-! ### TCP -/

open Tcp Web

theorem setParas_keepsShut {st : Station} {i : Zone} (buf : List UInt8) {f : UInt8}
    (hf : st.dev.zoneOf f = some i) : KeepsShut st.dev (setParas buf f st).dev := by
  rw [setParas_dev hf]
  exact ((((((keepsShut_para _ _).trans (keepsShut_para _ _)).trans (keepsShut_para _ _)).trans
    (keepsShut_up _ _)).trans (keepsShut_down _ _)).trans (keepsShut_range _ _)).trans
    (keepsShut_time _ _)

/-- No request over TCP arms a device that was shut down. -/
theorem tcp_keepsShut (recvbuf : Netbuf) {p : Panel} (hshut : p.station.dev.WasShut) :
    KeepsShut p.station.dev (p.tcp recvbuf).station.dev := by
  by_cases hset : Panel.SetsParas recvbuf p.station.dev
  · obtain ⟨i, hi⟩ := Dev.exists_zoneOf hset.2.2.2
    rw [Panel.tcp_setParas hset]
    exact setParas_keepsShut _ hi
  · have hturn := Panel.tcp_turn hset
    generalize p.tcp recvbuf = p' at hturn
    cases hturn with
    | same | reset => exact .refl _
    | arm f sw hon => exact absurd (hon.symm.trans hshut.remote) (by decide)
    | shutdown => exact keepsShut_shutdown _
    | silence f => exact keepsShut_resetSiren _ f

/-! ### Web -/

/-- The request is for the flags. -/
def Controls (params : CgiParams) : Prop :=
  ¬findCGIParameter "field_num_0" params ∧ ¬findCGIParameter "alarm_reset" params ∧
    findCGIParameter "CTR_TYPE" params

instance (params : CgiParams) : Decidable (Controls params) := by unfold Controls; infer_instance

theorem web_control {params : CgiParams} (h : Controls params) (d : Dev) :
    (controlCGIHandler params d).1 = Web.control params d := by
  rw [controlCGIHandler, if_neg h.1, if_neg h.2.1, if_pos h.2.2]

theorem web_keepsShut {params : CgiParams} (h : ¬Controls params) (d : Dev) :
    KeepsShut d (controlCGIHandler params d).1 := by
  rw [controlCGIHandler]
  split_ifs with hnum hreset hctr
  · exact keepsShut_para ..
  · refine .foldl (fun d kv => ?_) params d
    split_ifs
    · exact keepsShut_resetSiren ..
    · exact keepsShut_resetSiren ..
    · exact .refl d
  · exact absurd ⟨hnum, hreset, hctr⟩ h
  · exact .foldl (fun d kv => (KeepsShut.ite (keepsShut_up ..)).trans (.ite (keepsShut_down ..)))
      params d
  · exact .foldl (fun d kv => (KeepsShut.ite (keepsShut_range ..)).trans (.ite (keepsShut_time ..)))
      params d
  · exact .foldl (fun d kv => .ite (keepsShut_adc ..)) params d
  · exact .foldl (fun d kv => .ite (keepsShut_adc ..)) params d
  · exact .refl d

theorem control_wasShut {d : Dev} (h : d.WasShut) (params : CgiParams) :
    (Web.control params d).WasShut := by
  rw [Web.control]
  rcases ctrType params with _ | _ | f
  · exact h
  · exact h.store rfl
  · exact h.store rfl

theorem control_inForce_iff {d : Dev} {b : UInt8} (h : d.InForce b) (params : CgiParams) :
    (Web.control params d).InForce b ↔ ((ctrType params).isSome → ctrValue params = .off ∧ b = 0) := by
  rw [Web.control]
  rcases ctrType params with _ | _ | f
  · exact iff_of_true h fun hs => absurd hs (by simp)
  · exact (fangChai_inForce_iff h _).trans (imp_iff_right rfl).symm
  · exact (push_inForce_iff h f _).trans (imp_iff_right rfl).symm

/-! ### Keys -/

namespace Panel

open Lcd

variable {e : Env} {pins : Fin 2 → Bool} {k : Key} {s : Lcd} {p : Panel} {b : UInt8}

/-- ENTER on the arming screen while it is edited. -/
def AcceptsArming (k : Key) (s : Lcd) : Prop :=
  k = .enter ∧ s.flagPageState = .modifyState ∧ s.currentScreen = .setBuFangParaScreen

/-- The copies of the arming editor are all off. -/
def ArmingOff (t : Temps) : Prop := t.flagFcgjsn = .off ∧ ∀ f, t.buFangFlag f = .off

/-- The tamper alarm is switched where it differs. -/
theorem fangChai_differs (d : Dev) (sw : Switch) :
    (if d.alarm.flagFcgjsn ≠ sw then d.fangChai sw else d).alarm.flagFcgjsn = sw ∧
      (if d.alarm.flagFcgjsn ≠ sw then d.fangChai sw else d).alarm.buFangFlag = d.alarm.buFangFlag := by
  split_ifs with h
  · exact ⟨rfl, rfl⟩
  · exact ⟨not_not.mp h, rfl⟩

/-- A zone is switched where it differs. -/
theorem push_differs (d : Dev) (f : Zone) (sw : Switch) :
    (if d.alarm.buFangFlag f ≠ sw then d.push f sw else d).alarm.flagFcgjsn = d.alarm.flagFcgjsn ∧
      (if d.alarm.buFangFlag f ≠ sw then d.push f sw else d).alarm.buFangFlag =
        Function.update d.alarm.buFangFlag f sw := by
  split_ifs with h
  · exact ⟨rfl, rfl⟩
  · rw [not_not] at h
    rw [← h, Function.update_eq_self]
    exact ⟨rfl, rfl⟩

/-- The flags are the copies afterwards. -/
theorem acceptArming_flags (p : Panel) :
    p.acceptArming.station.dev.alarm.flagFcgjsn = p.temps.flagFcgjsn ∧
      p.acceptArming.station.dev.alarm.buFangFlag = p.temps.buFangFlag := by
  simp only [acceptArming, onDev, Station.onDev]
  have hfc (d : Dev) := (push_differs d 1 (p.temps.buFangFlag 1)).1
  have hbf (d : Dev) := (push_differs d 1 (p.temps.buFangFlag 1)).2
  refine ⟨(hfc _).trans ((push_differs _ 0 _).1.trans (fangChai_differs _ _).1), funext fun i => ?_⟩
  rw [hbf, (push_differs _ 0 _).2]
  rcases zone_cases i with rfl | rfl
  · rw [Function.update_of_ne (by decide), Function.update_self]
  · rw [Function.update_self]

theorem wasShut_ite {c : Prop} [Decidable c] {d d' : Dev} (h : d.WasShut)
    (h' : d.WasShut → d'.WasShut) :
    (if c then d' else d).WasShut := by
  split_ifs
  · exact h' h
  · exact h

theorem acceptArming_wasShut (h : p.station.dev.WasShut) : p.acceptArming.station.dev.WasShut := by
  simp only [acceptArming, onDev, Station.onDev]
  exact wasShut_ite (wasShut_ite (wasShut_ite h fun h => h.store rfl) fun h => h.store rfl)
    fun h => h.store rfl

theorem acceptArming_inForce_iff (h : p.station.dev.InForce b) :
    p.acceptArming.station.dev.InForce b ↔ ArmingOff p.temps := by
  obtain ⟨hfc, hbf⟩ := p.acceptArming_flags
  constructor
  · rintro ⟨hfc', hbf', -⟩
    exact ⟨hfc ▸ hfc', fun f => hbf ▸ hbf' f⟩
  · rintro ⟨hfc', hbf'⟩
    -- no flag differs from its copy
    have hsame : p.acceptArming.station.dev = p.station.dev := by
      simp [acceptArming, onDev, Station.onDev, h.flagFcgjsn, h.buFangFlag, hfc', hbf']
    rw [hsame]
    exact h

theorem acceptZonePara_keepsShut (p : Panel) :
    KeepsShut p.station.dev p.acceptZonePara.station.dev := by
  have hput (d : Dev) (q : FieldPara) : KeepsShut d { d with para := q } :=
    keepsShut_of_frame rfl rfl rfl rfl fun _ _ => rfl
  have hnum (d : Dev) (n : UInt8) : KeepsShut d (d.setFieldNum 0 n) := keepsShut_para ..
  have hdelay (d : Dev) (n : UInt16) : KeepsShut d (d.setAlarmDelay 0 n) := keepsShut_para ..
  have hstore (d : Dev) : KeepsShut d d.storePara := keepsShut_para ..
  exact (((hput _ _).trans (hnum _ _)).trans (hdelay _ _)).trans (hstore _)

theorem zoneEffect_keepsShut (k : Key) (s : Lcd) (p : Panel) :
    KeepsShut p.station.dev (p.zoneEffect k s).station.dev := by
  by_cases h : AcceptsZone k s
  · rw [zoneEffect_accept h]
    exact p.acceptZonePara_keepsShut
  · rw [zoneEffect_station h]
    exact .refl _

theorem silence_keepsShut (k : Key) (p : Panel) :
    KeepsShut p.station.dev (p.silence k).station.dev := by
  cases k with
  | left => exact keepsShut_resetSiren ..
  | right => exact keepsShut_resetSiren ..
  | _ => exact .refl _

/-- A menu whose rows are all harmless. -/
theorem enterRows_keepsShut {ops : List (Dev → Dev)} (h : ∀ op ∈ ops, ∀ d, KeepsShut d (op d))
    (row : UInt8) (p : Panel) : KeepsShut p.station.dev (p.enterRows ops row).station.dev := by
  rw [enterRows]
  rcases hop : choice ops row with _ | op
  · exact .refl _
  · exact h op (choice_mem hop) _

theorem armingEditor_keepsShut (h : ¬(k = .enter ∧ s.flagPageState = .modifyState)) (p : Panel) :
    KeepsShut p.station.dev (p.armingEditor k s).station.dev := by
  unfold armingEditor
  split
  · exact .refl _
  · exact .refl _
  · exact absurd ⟨rfl, ‹_›⟩ h
  · exact .refl _
  · exact .refl _
  · exact .refl _

theorem thresholdEditor_keepsShut (k : Key) (s : Lcd) (p : Panel) :
    KeepsShut p.station.dev (p.thresholdEditor k s).station.dev := by
  unfold thresholdEditor
  split
  · rw [openThreshold]
    split_ifs <;> exact .refl _
  · exact .refl _
  · have hput (d : Dev) : KeepsShut d
        { d with
          alarm := { d.alarm with
            alarmThresholdUpDif := p.temps.alarmThresholdUpDif
            alarmThresholdDownDif := p.temps.alarmThresholdDownDif } } :=
      keepsShut_of_frame rfl rfl rfl rfl fun _ _ => rfl
    exact ((hput _).trans (keepsShut_up _ _)).trans (keepsShut_down _ _)
  · exact .refl _
  · exact .refl _
  · exact .refl _

theorem updateSWAlarmState_keepsShut (pins : Fin 2 → Bool) (i : Fin 2) (st : Station) :
    KeepsShut st.dev (st.updateSWAlarmState pins i).dev := by
  rw [Station.updateSWAlarmState]
  split_ifs
  · exact keepsShut_of_frame rfl rfl rfl rfl fun _ _ => rfl
  · exact keepsShut_of_frame rfl rfl rfl rfl fun _ _ => rfl

theorem setSWValue_keepsShut (pins : Fin 2 → Bool) (sw1 sw2 : Int8) (st : Station) :
    KeepsShut st.dev (st.setSWValue pins sw1 sw2).dev := by
  have hstore (d : Dev) (b1 b2 : UInt8) :
      KeepsShut d { d with mem := at24cxxWrite d.mem swValAddr [b1, b2] } :=
    keepsShut_of_frame rfl rfl rfl rfl fun x hx =>
      write_frame d.mem (a := 0x56) (by simp) (by simp; omega)
  exact ((updateSWAlarmState_keepsShut pins 1 { st with swType := ![sw1, sw2] }).trans
    (updateSWAlarmState_keepsShut pins 0 _)).trans (hstore _ _ _)

theorem swTypeEditor_keepsShut (pins : Fin 2 → Bool) (k : Key) (s : Lcd) (p : Panel) :
    KeepsShut p.station.dev (p.swTypeEditor pins k s).station.dev := by
  unfold swTypeEditor
  split
  · exact setSWValue_keepsShut ..
  · rw [stepSwType]
    split_ifs <;> exact .refl _
  · rw [stepSwType]
    split_ifs <;> exact .refl _
  · exact .refl _

theorem datumRow_keepsShut (e : Env) (f : Zone) (d : Dev) : KeepsShut d (datumRow e f d) := by
  rw [datumRow]
  split_ifs
  · exact .refl _
  · exact keepsShut_adc ..

theorem fullScaleEditor_keepsShut (k : Key) (s : Lcd) (p : Panel) :
    KeepsShut p.station.dev (p.fullScaleEditor k s).station.dev := by
  cases k with
  | enter => exact keepsShut_range ..
  | _ => exact .refl _

theorem calibrateTimeEditor_keepsShut (k : Key) (s : Lcd) (p : Panel) :
    KeepsShut p.station.dev (p.calibrateTimeEditor k s).station.dev := by
  cases k with
  | enter => exact keepsShut_time ..
  | _ => exact .refl _

/-- All but the arming editor. -/
theorem otherEffect_keepsShut (h : ¬AcceptsArming k s) (p : Panel) :
    KeepsShut p.station.dev (p.otherEffect e pins k s).station.dev := by
  unfold otherEffect
  split
  · exact silence_keepsShut ..
  · split_ifs
    · exact .refl _
    · exact silence_keepsShut ..
  · rw [enterSetMenu]
    split_ifs <;> exact .refl _
  · exact armingEditor_keepsShut (fun ⟨hk, hs⟩ => h ⟨hk, hs, ‹_›⟩) p
  · exact thresholdEditor_keepsShut ..
  · exact enterRows_keepsShut (by simp [keepsShut_clearLog, KeepsShut.refl]) ..
  · exact enterRows_keepsShut (by simp [keepsShut_clearLog]) ..
  · exact enterRows_keepsShut (by simp [keepsShut_clearLog]) ..
  · exact enterRows_keepsShut (by simp [keepsShut_adc, Dev.updateZeroVal]) ..
  · exact enterRows_keepsShut (by simp [datumRow_keepsShut]) ..
  · exact swTypeEditor_keepsShut ..
  · exact fullScaleEditor_keepsShut ..
  · exact calibrateTimeEditor_keepsShut ..
  · exact .refl _
  · exact .refl _
  · exact .refl _
  · exact .refl _

theorem otherEffect_accept (h : AcceptsArming k s) (e : Env) (pins : Fin 2 → Bool) (p : Panel) :
    p.otherEffect e pins k s = p.acceptArming := by
  obtain ⟨rfl, hs, hscreen⟩ := h
  simp only [otherEffect, hscreen, armingEditor, hs]

theorem zoneEffect_arming (h : AcceptsArming k s) (p : Panel) : p.zoneEffect k s = p := by
  obtain ⟨rfl, -, hscreen⟩ := h
  simp only [zoneEffect, hscreen]

/-! ### Runs -/

/-- A request that leaves a shutdown in force. -/
def Allows (p : Panel) : Request → Prop
  | .tcp _ => True
  | .web params => Controls params → (ctrType params).isSome →
      ctrValue params = .off ∧ p.station.dev.storedControl = 0
  | .key e _ k => AcceptsArming k (idleTurn e k p.lcd) → ArmingOff p.temps

theorem step_wasShut (r : Request) (h : p.station.dev.WasShut) : (p.step r).station.dev.WasShut := by
  unfold step
  split_ifs
  · cases r with
    | tcp recvbuf => exact (tcp_keepsShut recvbuf h).wasShut h
    | web params =>
      change (controlCGIHandler params p.station.dev).1.WasShut
      by_cases hctr : Controls params
      · rw [web_control hctr]
        exact control_wasShut h params
      · exact (web_keepsShut hctr _).wasShut h
    | key e pins k =>
      change ((p.zoneEffect k (idleTurn e k p.lcd)).otherEffect e pins k
        (idleTurn e k p.lcd)).station.dev.WasShut
      by_cases hacc : AcceptsArming k (idleTurn e k p.lcd)
      · rw [otherEffect_accept hacc, zoneEffect_arming hacc]
        exact acceptArming_wasShut h
      · exact ((zoneEffect_keepsShut ..).trans (otherEffect_keepsShut hacc _)).wasShut h
  · exact h

theorem step_inForce_iff (r : Request) (h : p.station.dev.WasShut) (hb : p.station.dev.InForce b) :
    (p.step r).station.dev.InForce b ↔ (p.running → p.Allows r) := by
  unfold step
  split_ifs with hrun
  · rw [imp_iff_right hrun]
    cases r with
    | tcp recvbuf => exact iff_of_true ((tcp_keepsShut recvbuf h).inForce h b hb) trivial
    | web params =>
      change (controlCGIHandler params p.station.dev).1.InForce b ↔ _
      by_cases hctr : Controls params
      · rw [web_control hctr, control_inForce_iff hb, Allows, imp_iff_right hctr, hb.stored]
      · exact iff_of_true ((web_keepsShut hctr _).inForce h b hb) fun hc => absurd hc hctr
    | key e pins k =>
      change ((p.zoneEffect k (idleTurn e k p.lcd)).otherEffect e pins k
        (idleTurn e k p.lcd)).station.dev.InForce b ↔ _
      by_cases hacc : AcceptsArming k (idleTurn e k p.lcd)
      · rw [otherEffect_accept hacc, zoneEffect_arming hacc, Allows, imp_iff_right hacc]
        exact acceptArming_inForce_iff hb
      · exact iff_of_true (((zoneEffect_keepsShut ..).trans (otherEffect_keepsShut hacc _)).inForce h
          b hb)
          fun ha => absurd ha hacc
  · exact iff_of_true hb fun hr => absurd hr hrun

/-- A shutdown stays in force exactly as long as every request leaves it so. The next start then
    finds what was armed before it, if that had been stored. -/
theorem run_inForce_iff (p : Panel) (rs : List Request)
    (h : PointersOk p.station.dev.mem p.station.dev.log) :
    ((∀ q ∈ Run.steps step (p.onDev Dev.shutdown) rs,
        (q.1.step q.2).station.dev.InForce p.station.dev.storedControl) ↔
      ∀ q ∈ Run.steps step (p.onDev Dev.shutdown) rs, q.1.running → q.1.Allows q.2) ∧
    ((∀ q ∈ Run.steps step (p.onDev Dev.shutdown) rs, q.1.running → q.1.Allows q.2) →
      p.station.dev.storedControl = p.station.dev.controlPara →
      ∀ q ∈ Run.steps step (p.onDev Dev.shutdown) rs, ∀ fieldFlagS0D1 : Bool,
        (fieldFlagS0D1 → p.station.dev.alarm.buFangFlag 1 = .off) →
        ((q.1.step q.2).station.dev.initControlPara fieldFlagS0D1).alarm.flagFcgjsn =
            p.station.dev.alarm.flagFcgjsn ∧
          ((q.1.step q.2).station.dev.initControlPara fieldFlagS0D1).alarm.buFangFlag =
            p.station.dev.alarm.buFangFlag) := by
  have hshut : (p.onDev Dev.shutdown).station.dev.WasShut := ⟨rfl, h⟩
  have hforce : (p.onDev Dev.shutdown).station.dev.InForce p.station.dev.storedControl :=
    ⟨rfl, fun _ => rfl, rfl⟩
  have hshuts : ∀ q ∈ Run.steps step (p.onDev Dev.shutdown) rs, q.1.station.dev.WasShut :=
    Run.steps_inv (fun p : Panel => p.station.dev.WasShut) (fun _ r hp => step_wasShut r hp) rs _ hshut
  have hiff : (∀ q ∈ Run.steps step (p.onDev Dev.shutdown) rs, (q.1.step q.2).station.dev.WasShut ∧
        (q.1.step q.2).station.dev.InForce p.station.dev.storedControl) ↔
      ∀ q ∈ Run.steps step (p.onDev Dev.shutdown) rs, q.1.running → q.1.Allows q.2 :=
    Run.steps_iff
      (fun p' : Panel => p'.station.dev.WasShut ∧ p'.station.dev.InForce p.station.dev.storedControl)
      (fun p' r => p'.running → p'.Allows r)
      (fun _ r hp => (and_iff_right (step_wasShut r hp.1)).trans (step_inForce_iff r hp.1 hp.2)) rs _
      ⟨hshut, hforce⟩
  have hrun : (∀ q ∈ Run.steps step (p.onDev Dev.shutdown) rs,
        (q.1.step q.2).station.dev.InForce p.station.dev.storedControl) ↔
      ∀ q ∈ Run.steps step (p.onDev Dev.shutdown) rs, q.1.running → q.1.Allows q.2 :=
    Iff.trans ⟨fun hf q hq => ⟨step_wasShut q.2 (hshuts q hq), hf q hq⟩,
      fun hf q hq => (hf q hq).2⟩ hiff
  refine ⟨hrun, fun hok hstored q hq fieldFlagS0D1 hsingle => ?_⟩
  exact initControlPara_flags ((hrun.mpr hok q hq).stored.trans hstored) hsingle

theorem firstStart_pointersOk : PointersOk firstStart.station.dev.mem firstStart.station.dev.log := by
  have hblank : PointersOk (logInit newEeprom powerOn).1 (logInit newEeprom powerOn).2 :=
    pointersOk_of_wellFormed fun t => ⟨0, [], (erased_newEeprom t).logInit powerOn⟩
  have hlog : firstStart.station.dev.log = (logInit newEeprom powerOn).2 := rfl
  rw [hlog]
  exact hblank.congr fun x hx _ => storePara_mem Dev.blank (by omega)

/-- An attempt to arm zone A over TCP, and a threshold set in the browser. -/
def afterShutdown : List Request :=
  [.tcp (Netbuf.single [0x94, 4, 0, 1, 2, 1] (by decide)),
    .web [(CStr.lit "THRESHOLD_UP", CStr.lit "60")]]

theorem run_inForce_afterShutdown :
    PointersOk firstStart.station.dev.mem firstStart.station.dev.log ∧
    ∀ q ∈ Run.steps step (firstStart.onDev Dev.shutdown) afterShutdown,
      (q.1.step q.2).station.dev.InForce firstStart.station.dev.storedControl := by
  have hrun := run_inForce_iff firstStart afterShutdown firstStart_pointersOk
  refine ⟨firstStart_pointersOk, hrun.1.mpr ?_⟩
  simp only [afterShutdown, Run.steps, List.forall_mem_cons]
  refine ⟨fun _ => trivial, fun _ hctr => absurd hctr (by decide), by simp⟩

/-- The request that arms zone A. -/
def armParams : CgiParams :=
  [(CStr.lit "CTR_TYPE", CStr.lit "a_bf"), (CStr.lit "CTR_VALUE", CStr.lit "1")]

/-- Zone A is armed in the browser. -/
theorem not_run_inForce : ¬ ∀ (p : Panel) (rs : List Request),
    PointersOk p.station.dev.mem p.station.dev.log →
    ∀ q ∈ Run.steps step (p.onDev Dev.shutdown) rs,
      (q.1.step q.2).station.dev.InForce p.station.dev.storedControl := by
  intro h
  have hiff := step_inForce_iff (p := firstStart.onDev Dev.shutdown) (.web armParams)
    ⟨rfl, firstStart_pointersOk⟩ ⟨rfl, fun _ => rfl, rfl⟩
  have hallows := hiff.mp (h firstStart [.web armParams] firstStart_pointersOk _
    (List.mem_singleton_self _))
  exact absurd (hallows rfl (by decide) (by decide)).1 (by decide)

end Panel

end VectorFence
