import VectorFence.Settings
import VectorFence.Shutdown

/-! ENTER at the end of an edit. An editor of `main_task` has one row for each of its parameters and
    puts all of them in place, the one that was edited and those in the other rows:

        arming                    thresholds            zone A, zone B
        1  zone A      control    1  upper  threshold   1  number       zones
        2  zone B                 2  lower              2  delay
        3  tamper alarm                                 3  sensitivity

    `Panel.put` is what it puts in place: the copies of `Temps`, and for the switch types the word
    that is made of them. -/

namespace VectorFence

open Eeprom FieldPara Lcd

/-- The settings an editor puts in place. -/
def Lcd.editBlock : Screen → Option Block
  | .setBuFangParaScreen => some .control
  | .setAlarmThresholdScreen => some .threshold
  | .setAFangQuParaScreen | .setBFangQuParaScreen => some .zones
  | .setExtDeviceTypeScreen => some .switches
  | _ => none

/-- The parameter in a row of an editor. -/
def Setting.shown (screen : Screen) (row : UInt8) : Option Setting :=
  let rows (ss : List Setting) : Option Setting := choice ss row
  match screen with
  | .setBuFangParaScreen => rows [.buFang 0, .buFang 1, .fangChai]
  | .setAlarmThresholdScreen => rows [.thresholdUp, .thresholdDown]
  | .setAFangQuParaScreen => rows [.fieldNum 0, .alarmDelay 0, .alarmSensitivity 0]
  | .setBFangQuParaScreen => rows [.fieldNum 1, .alarmDelay 1, .alarmSensitivity 1]
  | .setExtDeviceTypeScreen => rows [.swType 0, .swType 1]
  | _ => none

namespace Panel

def mem (p : Panel) : Eeprom := p.station.dev.mem

/-- What an editor puts in place for a setting. -/
def put (p : Panel) : Setting → ℕ
  | .fieldNum f => (p.temps.fieldNum f).toNat
  | .alarmDelay f => (p.temps.alarmDelay f).toNat
  | .alarmSensitivity f => (p.temps.alarmSensitivity f).toNat
  | .thresholdUp => p.temps.alarmThresholdUpDif.toNat
  | .thresholdDown => p.temps.alarmThresholdDownDif.toNat
  | .buFang f => (p.temps.buFangFlag f).bit.toNat
  | .fangChai => p.temps.flagFcgjsn.bit.toNat
  | .swType i => if i = 1 ∧ p.station.swType 0 < 0 then 0xFF else p.station.value (.swType i)
  | s => p.station.value s

/-- A block is put in place; it is stored where `writes` holds. -/
structure Puts (b : Block) (writes : Prop) (p p' : Panel) : Prop where
  value : ∀ s, p'.station.value s = if s.block = b then p.put s else p.station.value s
  stored : ∀ s, (s.block = b → writes → p'.mem.stored s = p.put s) ∧
    (¬(s.block = b ∧ writes) → p'.mem.stored s = p.mem.stored s)

/-- The block is in step afterwards. -/
theorem puts_of_inStep {b : Block} {p p' : Panel}
    (hval : ∀ s, p'.station.value s = if s.block = b then p.put s else p.station.value s)
    (hin : p'.station.InStep b) (hframe : b.Frame p.mem p'.mem) : Puts b True p p' := by
  refine ⟨hval, fun s => ⟨fun hs _ => ?_, fun hs => hframe.stored fun hb => hs ⟨hb, trivial⟩⟩⟩
  rw [mem, hin s hs, hval, if_pos hs]

/-! ### What each editor puts in place -/

section Frames

variable (d : Dev)

theorem frame_para : Block.zones.Frame d.mem d.storePara.mem := by
  intro x hx
  exact d.storePara_mem (Block.not_covers hx)

theorem frame_fieldNum (f : Zone) (v : UInt8) : Block.zones.Frame d.mem (d.setFieldNum f v).mem :=
  frame_para (d.assignFieldNum f v)

theorem frame_alarmDelay (f : Zone) (v : UInt16) : Block.zones.Frame d.mem (d.setAlarmDelay f v).mem :=
  frame_para (d.assignAlarmDelay f v)

theorem frame_threshold : Block.threshold.Frame d.mem d.storeAlmThrd.mem := by
  intro x hx
  exact d.storeAlmThrd_mem (Block.not_covers hx)

theorem frame_up (v : UInt16) : Block.threshold.Frame d.mem (d.setAlmThrdUpDif v).mem :=
  frame_threshold { d with alarm := { d.alarm with alarmThresholdUpDif := v } }

theorem frame_down (v : UInt16) : Block.threshold.Frame d.mem (d.setAlmThrdDwDif v).mem :=
  frame_threshold { d with alarm := { d.alarm with alarmThresholdDownDif := v } }

theorem frame_control : Block.control.Frame d.mem d.storeControlPara.mem := by
  intro x hx
  refine d.storeControlPara_mem fun h => hx ?_
  subst h
  decide

variable (st : Station)

theorem inStep_storePara : Station.InStep .zones { st with dev := d.storePara } := inStep_zones rfl

theorem inStep_storeAlmThrd : Station.InStep .threshold { st with dev := d.storeAlmThrd } :=
  inStep_threshold rfl

end Frames

section Zones

variable (p : Panel)

/-- The copies of both zones in place. -/
def withZones (p : Panel) : Dev :=
  { p.station.dev with
    para := { p.station.dev.para with
      fieldNum := p.temps.fieldNum
      alarmDelay := p.temps.alarmDelay
      alarmSensitivity := p.temps.alarmSensitivity } }

theorem acceptZonePara_dev : p.acceptZonePara.station.dev =
    ((p.withZones.setFieldNum 0 (p.temps.fieldNum 0)).setAlarmDelay 0
    (p.temps.alarmDelay 0)).storePara := by
  simp only [acceptZonePara, onDev, Station.onDev]
  rfl

/-- What is put in place again is there already. -/
theorem withZones_again : (p.withZones.setFieldNum 0 (p.temps.fieldNum 0)).setAlarmDelay 0
    (p.temps.alarmDelay 0) =
    { p.withZones with
      mem := ((p.withZones.setFieldNum 0 (p.temps.fieldNum 0)).setAlarmDelay 0
        (p.temps.alarmDelay 0)).mem } := by
  have hnum : Function.update p.temps.fieldNum 0 (p.temps.fieldNum 0) = p.temps.fieldNum :=
    Function.update_eq_self ..
  have hdelay : Function.update p.temps.alarmDelay 0 (p.temps.alarmDelay 0) = p.temps.alarmDelay :=
    Function.update_eq_self ..
  simp only [Dev.setAlarmDelay, Dev.setFieldNum, Dev.storePara, Dev.assignAlarmDelay,
    Dev.assignFieldNum,
    withZones, hnum, hdelay]

theorem puts_zonePara : Puts .zones True p p.acceptZonePara := by
  have hst : p.acceptZonePara.station = { p.station with dev := p.acceptZonePara.station.dev } := rfl
  rw [acceptZonePara_dev] at hst
  refine puts_of_inStep (fun s => ?_) ?_ ?_
  · rw [hst, withZones_again]
    cases s <;> rfl
  · rw [hst]
    exact inStep_storePara _ _
  · rw [mem, mem, acceptZonePara_dev]
    exact ((frame_fieldNum p.withZones _ _).trans (frame_alarmDelay _ _ _)).trans (frame_para _)

end Zones

section Thresholds

variable (p : Panel)

/-- Both copies in place. -/
def withThresholds (p : Panel) : Dev :=
  { p.station.dev with
    alarm := { p.station.dev.alarm with
      alarmThresholdUpDif := p.temps.alarmThresholdUpDif
      alarmThresholdDownDif := p.temps.alarmThresholdDownDif } }

theorem acceptThreshold_dev : p.acceptThreshold.station.dev =
    (p.withThresholds.setAlmThrdUpDif p.temps.alarmThresholdUpDif).setAlmThrdDwDif
      p.temps.alarmThresholdDownDif := by
  simp only [acceptThreshold, onDev, Station.onDev]
  rfl

theorem puts_threshold : Puts .threshold True p p.acceptThreshold := by
  have hst : p.acceptThreshold.station = { p.station with dev := p.acceptThreshold.station.dev } := rfl
  rw [acceptThreshold_dev] at hst
  refine puts_of_inStep (fun s => ?_) ?_ ?_
  · rw [hst]
    cases s <;> rfl
  · rw [hst]
    exact inStep_storeAlmThrd _ _
  · rw [mem, mem, acceptThreshold_dev]
    exact (frame_up p.withThresholds _).trans (frame_down _ _)

end Thresholds

section Arming

/-- Nothing was done, or flags were switched and stored. -/
structure Rearms (d d' : Dev) : Prop where
  value : ∀ (st : Station) (s : Setting), s.block ≠ .control →
    Station.value { st with dev := d' } s = Station.value { st with dev := d } s
  stored : d' = d ∨ Block.control.Frame d.mem d'.mem ∧
    at24cxxReadOneByte d'.mem controlParaAddr = d'.controlPara

variable {d d' : Dev}

theorem Rearms.refl (d : Dev) : Rearms d d := ⟨fun _ _ _ => rfl, Or.inl rfl⟩

/-- Switching stores all flags. -/
theorem Rearms.store (h : Rearms d d') {a : Alarm}
    (hval : ∀ (st : Station) (s : Setting), s.block ≠ .control →
      Station.value { st with dev := { d' with alarm := a } } s = Station.value
      { st with dev := d' } s) :
    Rearms d (Dev.storeControlPara { d' with alarm := a }) := by
  refine ⟨fun st s hs => ?_, Or.inr ⟨?_, Dev.storedControl_storeControlPara _⟩⟩
  · rw [← h.value st s hs, ← hval st s hs]
    exact Station.value_mem { st with dev := { d' with alarm := a } } _ s
  · have hframe := frame_control { d' with alarm := a }
    rcases h.stored with rfl | ⟨hd, -⟩
    · exact hframe
    · exact hd.trans hframe

theorem Rearms.fangChai (h : Rearms d d') (sw : Switch) :
    Rearms d (if d'.alarm.flagFcgjsn ≠ sw then d'.fangChai sw else d') := by
  split_ifs
  · refine h.store fun st s hs => ?_
    cases s <;> first | rfl | exact absurd rfl hs
  · exact h

theorem Rearms.push (h : Rearms d d') (f : Zone) (sw : Switch) :
    Rearms d (if d'.alarm.buFangFlag f ≠ sw then d'.push f sw else d') := by
  split_ifs
  · refine h.store fun st s hs => ?_
    cases s <;> first | rfl | exact absurd rfl hs
  · exact h

theorem rearms_acceptArming (p : Panel) : Rearms p.station.dev p.acceptArming.station.dev := by
  simp only [acceptArming, onDev, Station.onDev]
  exact (((Rearms.refl _).fangChai _).push 0 _).push 1 _

theorem bit_inj {sw sw' : Switch} : sw.bit.toNat = sw'.bit.toNat ↔ sw = sw' := by
  cases sw <;> cases sw' <;> decide

/-- A flag differs from its copy. -/
def Rearming (p : Panel) : Prop := ∃ s : Setting, s.block = .control ∧ p.put s ≠ p.station.value s

theorem acceptArming_of_not {p : Panel} (h : ¬p.Rearming) : p.acceptArming.station = p.station := by
  have hsame (s : Setting) (hs : s.block = .control) : p.put s = p.station.value s := by
    by_contra hne
    exact h ⟨s, hs, hne⟩
  have hfc := bit_inj.mp (hsame .fangChai rfl)
  have hbf (f : Zone) := bit_inj.mp (hsame (.buFang f) rfl)
  simp [acceptArming, onDev, Station.onDev, hfc, hbf]

theorem puts_arming (p : Panel) : Puts .control p.Rearming p p.acceptArming := by
  obtain ⟨hfc, hbf⟩ := p.acceptArming_flags
  obtain ⟨hother, hstored⟩ := rearms_acceptArming p
  have hval (s : Setting) :
      p.acceptArming.station.value s = if s.block = .control then p.put s else p.station.value s := by
    split_ifs with hs
    · cases s with
      | buFang f => exact congrArg (fun sw => Switch.bit (sw f) |>.toNat) hbf
      | fangChai => exact congrArg (fun sw => Switch.bit sw |>.toNat) hfc
      | _ => exact absurd hs (by simp [Setting.block])
    · exact hother p.station s hs
  refine ⟨hval, fun s => ⟨fun hs hw => ?_, fun hno => ?_⟩⟩
  · rcases hstored with hsame | ⟨-, hbyte⟩
    · obtain ⟨s', hs', hne⟩ := hw
      have hst : p.acceptArming.station = p.station :=
        congrArg (fun d => { p.station with dev := d }) hsame
      have hput := hval s'
      rw [hst, if_pos hs'] at hput
      exact absurd hput.symm hne
    · rw [mem, inStep_control hbyte s hs, hval, if_pos hs]
  · by_cases hw : p.Rearming
    · have hs : s.block ≠ .control := fun hs => hno ⟨hs, hw⟩
      rcases hstored with hsame | ⟨hframe, -⟩
      · rw [mem, hsame, mem]
      · exact hframe.stored hs
    · rw [mem, acceptArming_of_not hw, mem]

end Arming

section Switches

variable (pins : Fin 2 → Bool)

theorem updateSWAlarmState_value (i : Fin 2) (st : Station) (s : Setting) :
    (st.updateSWAlarmState pins i).value s = st.value s := by
  cases s <;> simp only [Station.updateSWAlarmState, Station.value] <;> split_ifs <;> rfl

/-- The states of the inputs are brought up to date, which changes no setting. -/
theorem setSWValue_value (sw1 sw2 : Int8) (st : Station) (s : Setting) :
    (st.setSWValue pins sw1 sw2).value s = Station.value { st with swType := ![sw1, sw2] } s := by
  have hmem : (st.setSWValue pins sw1 sw2).value s = (Station.updateSWAlarmState pins 0
      (Station.updateSWAlarmState pins 1 { st with swType := ![sw1, sw2] })).value s :=
    Station.value_mem _ _ s
  rw [hmem, updateSWAlarmState_value, updateSWAlarmState_value]

theorem setSWValue_frame (sw1 sw2 : Int8) (st : Station) :
    Block.switches.Frame st.dev.mem (st.setSWValue pins sw1 sw2).dev.mem := by
  intro x hx
  exact write_frame st.dev.mem (a := swValAddr) (by simp [swValAddr]) (Block.not_covers hx)

theorem setSWValue_inStep (sw1 sw2 : Int8) (st : Station) :
    (st.setSWValue pins sw1 sw2).InStep .switches := inStep_switches rfl

theorem puts_swType (p : Panel) : Puts .switches True p (p.acceptSwType pins) := by
  refine puts_of_inStep (fun s => ?_) (setSWValue_inStep pins _ _ _) (setSWValue_frame pins _ _ _)
  rw [acceptSwType, setSWValue_value]
  cases s with
  | swType i =>
    rcases zone_cases i with rfl | rfl
    · rfl
    · by_cases h : p.station.swType 0 < 0
      · simp only [put, h, Setting.block, Station.value, if_true, and_self]
        rfl
      · simp only [put, h, Setting.block, Station.value, if_true, and_false, if_false]
        rfl
  | _ => rfl

end Switches

/-! ### The step -/

/-- ENTER at the end of an edit. -/
def Confirms (b : Block) (p : Panel) : Request → Prop
  | .key _ _ k =>
      p.running ∧ k = .enter ∧ p.lcd.flagPageState = .modifyState ∧
        editBlock p.lcd.currentScreen = some b
  | _ => False

/-- The arming editor stores nothing when no flag differs from its copy. -/
def Writes (b : Block) (p : Panel) : Prop := b = .control → p.Rearming

variable {b : Block} {p p' : Panel} {r : Request}

theorem Puts.congr {w w' : Prop} {q : Panel} (h : Puts b w p q) (hst : p'.station = q.station)
    (hw : w ↔ w') :
    Puts b w' p p' := by
  refine ⟨fun s => by rw [hst]; exact h.value s, fun s => ?_⟩
  rw [mem, hst, ← hw]
  exact h.stored s

theorem idleTurn_enter (e : Env) (s : Lcd) : idleTurn e .enter s = { s with noKeyNum := 0 } := by
  simp [idleTurn]

theorem step_puts (h : p.Confirms b r) : Puts b (p.Writes b) p (p.step r) := by
  cases r with
  | tcp recvbuf => exact absurd h id
  | web params => exact absurd h id
  | key e pins k =>
    obtain ⟨hrun, rfl, hpage, hblock⟩ := h
    have hstep : (p.step (.key e pins .enter)).station =
        ((p.zoneEffect .enter { p.lcd with noKeyNum := 0 }).otherEffect e pins .enter
          { p.lcd with noKeyNum := 0 }).station := by
      simp only [step, if_pos hrun, turn, idleTurn_enter]
    have htrue {b : Block} (hb : b ≠ .control) : True ↔ p.Writes b :=
      iff_of_true trivial fun hc => absurd hc hb
    unfold editBlock at hblock
    split at hblock
    · rename_i hscreen
      cases hblock
      refine (puts_arming p).congr ?_ (by simp [Writes])
      simp only [hstep, zoneEffect, otherEffect, armingEditor, hscreen, hpage]
    · rename_i hscreen
      cases hblock
      refine (puts_threshold p).congr ?_ (htrue (by decide))
      simp only [hstep, zoneEffect, otherEffect, thresholdEditor, hscreen, hpage]
    · rename_i hscreen
      cases hblock
      refine (puts_zonePara p).congr ?_ (htrue (by decide))
      simp only [hstep, zoneEffect, otherEffect, zoneEditor, hscreen, hpage]
    · rename_i hscreen
      cases hblock
      refine (puts_zonePara p).congr ?_ (htrue (by decide))
      simp only [hstep, zoneEffect, otherEffect, zoneEditor, hscreen, hpage]
    · rename_i hscreen
      cases hblock
      refine (puts_swType pins p).congr ?_ (htrue (by decide))
      simp only [hstep, zoneEffect, otherEffect, swTypeEditor, hscreen, hpage]
    · exact absurd hblock (by simp)

/-! ### Only the row that was edited -/

/-- A request that ends an edit changes the parameter in its row only. -/
def Confined (p : Panel) (r : Request) : Prop := ∀ b ≠ Block.switches, p.Confirms b r →
  ∀ s : Setting, Setting.shown p.lcd.currentScreen p.lcd.rowPoint ≠ some s →
    (p.step r).station.value s = p.station.value s ∧ (p.step r).mem.stored s = p.mem.stored s

/-- The copies in the other rows are up to date, and where the editor stores them the EEPROM is. -/
def Fresh (p : Panel) (r : Request) : Prop := ∀ b ≠ Block.switches, p.Confirms b r →
  ∀ s : Setting, Setting.shown p.lcd.currentScreen p.lcd.rowPoint ≠ some s → s.block = b →
    p.put s = p.station.value s ∧ (p.Writes b → p.mem.stored s = p.station.value s)

theorem confined_iff (p : Panel) (r : Request) : p.Confined r ↔ p.Fresh r := by
  refine forall_congr' fun b => forall_congr' fun _ => forall_congr' fun h => forall_congr' fun s =>
    forall_congr' fun _ => ?_
  obtain ⟨hval, hstored⟩ := step_puts h
  by_cases hs : s.block = b
  · rw [imp_iff_right hs, hval, if_pos hs]
    refine and_congr_right fun hput => ?_
    by_cases hw : p.Writes b
    · rw [imp_iff_right hw, (hstored s).1 hs hw, hput]
      exact eq_comm
    · exact iff_of_true ((hstored s).2 fun h => hw h.2) fun h => absurd h hw
  · rw [hval, if_neg hs]
    exact iff_of_true ⟨rfl, (hstored s).2 fun h => hs h.1⟩ fun h => absurd h hs

/-- In a run each ENTER keeps to its row exactly as long as it finds the other rows up to date. -/
theorem run_confined_iff (p : Panel) (rs : List Request) :
    (∀ q ∈ Run.steps step p rs, q.1.Confined q.2) ↔ ∀ q ∈ Run.steps step p rs, q.1.Fresh q.2 :=
  forall₂_congr fun q _ => confined_iff q.1 q.2

/-- A quiet device with two zones. -/
def quiet : Env where
  alarmIdle := 0
  alarmList := 0
  fieldFlagS0D1 := false
  calibratingFlag := 0xFF
  calibrateEn _ := 0

def keys (ks : List Key) : List Request := ks.map (.key quiet fun _ => false)

/-- The way of the super user from the run screen to the menu of settings. -/
def toSettings : List Key :=
  [.enter, .up, .enter, .up, .right, .up, .up, .right, .up, .up, .up, .right, .up, .up, .up,
    .up, .right,
    .up, .up, .up, .up, .up, .right, .up, .up, .up, .up, .up, .up, .enter, .enter]

/-- Zone A is opened in the arming editor, nothing is changed in it. -/
def zoneOpened : Panel :=
  (keys (toSettings ++ [.down, .down, .down, .enter, .enter])).foldl step firstStart

theorem zoneOpened_eq : zoneOpened.running = true ∧ zoneOpened.lcd.flagPageState = .modifyState ∧
    zoneOpened.lcd.currentScreen = .setBuFangParaScreen ∧ zoneOpened.lcd.rowPoint = 1 ∧
    zoneOpened.temps.flagFcgjsn = .off ∧ zoneOpened.station.dev.alarm.flagFcgjsn = .on := by
  decide +kernel

/-- ENTER in the row of zone A switches the tamper alarm off. -/
theorem not_run_confined :
    ¬ ∀ rs, ∀ q ∈ Run.steps step firstStart rs, q.1.Confined q.2 := by
  intro h
  obtain ⟨hrun, hpage, hscreen, hrow, hcopy, hflag⟩ := zoneOpened_eq
  have hmem := h (keys (toSettings ++ [.down, .down, .down, .enter, .enter]) ++ keys [.enter])
    (zoneOpened, .key quiet (fun _ => false) .enter)
    (by rw [Run.steps_append]; exact List.mem_append_right _ (List.mem_singleton_self _))
  have hfresh := (confined_iff _ _).mp hmem .control (by decide)
    ⟨hrun, rfl, hpage, by rw [hscreen]; rfl⟩ .fangChai (by rw [hscreen, hrow]; decide) rfl
  exact absurd hfresh.1 (by simp only [put, Station.value, hcopy, hflag]; decide)

end Panel

end VectorFence
