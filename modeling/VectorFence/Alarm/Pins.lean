import VectorFence.Alarm.Edges
import VectorFence.Switches

/-! The switch inputs and their interrupts. An edge of a pin that is connected to an interrupt line
    raises the line; its handler evaluates one input and then takes the pending bit back.

        PA8  ADC_CTRL2 ──▶ line 8  ──▶ evaluate SW1        PA11 SW1
        PA12 SW2       ──▶ line 12 ──▶ evaluate SW2

    SW1 is read from PA11, which is connected to no line: its handler runs only for the edges of PA8, an
    output that selects the lines to be sampled.

    Three tasks write `ALARM_STATE` as well, and no critical section stands around that: a task
    loads the word, changes one bit and stores it, and a handler may come in between.

        watch_task, tcpip_thread, main_task    load ALARM_STATE ─ … ─ store it
        handler                                        evaluate ─ clear

    A handler cannot be interrupted by a task, so its own load and store are one step. -/

namespace VectorFence

open Alarm AlarmWord Station

/-- The pins of `SW1` and `SW2`, port A. -/
def swPin : Fin 2 → ℕ := ![11, 12]

/-- The lines of `EXTIX_Init` and with them their pins, port A; the handler of line `extiLine i`
    evaluates input `i`. -/
def extiLine : Fin 2 → ℕ := ![8, 12]

/-- The tasks that write `ALARM_STATE`. -/
inductive AlarmTask where | watch | tcpip | main
  deriving DecidableEq, Repr

/-- The alarms of `ALARM_STATE` other than those of the inputs. -/
inductive OtherAlarm where
  | fangChai
  | zone (f : Zone) (c : Cond)

def OtherAlarm.mask : OtherAlarm → ℕ
  | fangChai => abFchMask
  | zone f c => Alarm.mask f c

/-- What is left of the calls of a task. UP and DOWN count `SW_Type[i]` first and then, in `wrap`, look
    whether it is past its end. -/
inductive SwAct where
  | setSWValue (swVal : UInt16)
  | setLow (swType : Int8)
  | updateSW (i : Fin 2)
  | writeSWVal
  | countType (i : Fin 2) (up : Bool)
  | wrapType (i : Fin 2) (up : Bool)
  | change (a : OtherAlarm) (set : Bool)

/-- How far a task is in the first of them: `SW_Alarm` is read and the decision taken, the word is
    loaded, the type is loaded. -/
inductive SwStage where
  | fresh
  | chosen (set : Bool)
  | loaded (set : Bool) (state : AlarmWord)
  | loadedType (v : Int8)

structure SwTask where
  todo : List SwAct
  stage : SwStage

/-- The station with the levels of port A, its two interrupts and its tasks. `handling i` is set between
    the evaluation of the input and `EXTI_ClearITPendingBit`. -/
structure Inputs where
  station : Station
  porta : ℕ → Bool
  pending : Fin 2 → Bool
  handling : Fin 2 → Bool
  task : AlarmTask → SwTask

/-- A call of a task: `setSWValue`, UP or DOWN in the editor of the switch types, one
    `SET_ALARM_STATE` or `CLEAR_ALARM_STATE` of a check. -/
inductive SwCall where
  | setSWValue (swVal : UInt16)
  | editSwType (i : Fin 2) (up : Bool)
  | change (a : OtherAlarm) (set : Bool)

def SwCall.acts : SwCall → List SwAct
  | setSWValue swVal => [.setSWValue swVal]
  | editSwType i up => [.countType i up, .wrapType i up]
  | change a set => [.change a set]

/-- What the inputs, their types and `ALARM_STATE` go through. An operation of the alarm code that
    is not interrupted is one event, `alarm`; its changes of single bits can come on their own as
    calls. -/
inductive InputEvent where
  | level (pin : ℕ) (v : Bool)
  | evaluate (i : Fin 2)
  | clearPending (i : Fin 2)
  | call (k : AlarmTask) (c : SwCall)
  | run (k : AlarmTask)
  | alarm (op : Dev.AlarmOp)

/-- `SW_Type[i]++` or `SW_Type[i]--`. -/
def countedSwType (up : Bool) (v : Int8) : Int8 := if up then v + 1 else v - 1

/-- What is stored in `SW_Type[i]` when it is past its end. -/
def wrappedSwType (up : Bool) (v : Int8) : Option Int8 :=
  if up then if v > 8 then some 0 else none else if v < 0 then some 8 else none

/-- The store of `SET_ALARM_STATE` or `CLEAR_ALARM_STATE` into `ALARM_STATE`, `state` being the word
    that was loaded. With a bit that is set goes `ALARM_STATE_DELAY`, unless bit 2 of `config_code`
    is set. -/
def Alarm.storeBit (state : AlarmWord) (mask : ℕ) (set : Bool) (s : Alarm) : Alarm :=
  if set then { s with
    alarmState := setAlarmState state mask
    alarmStateDelay := if s.configBit 2 then
      s.alarmStateDelay else setAlarmState s.alarmStateDelay mask }
  else { s with alarmState := clearAlarmState state mask }

namespace Inputs

variable {s : Inputs} {i j : Fin 2} {k : AlarmTask}

/-- `SW1` and `SW2`. -/
def sw (s : Inputs) (i : Fin 2) : Bool := s.porta (swPin i)

/-- The test of `updateSWAlarmState`. -/
def active (s : Inputs) (i : Fin 2) : Bool := decide (s.station.swType i ≠ 0) && s.sw i

def alarmState (s : Inputs) : AlarmWord := s.station.dev.alarm.alarmState

/-- After `ALARM_Init`. -/
def powerOn (porta : ℕ → Bool) (st : Station) : Inputs where
  station := st.initSwType fun i => porta (swPin i)
  porta := porta
  pending _ := false
  handling _ := false
  task _ := ⟨[], .fresh⟩

def setSwType (s : Inputs) (i : Fin 2) (v : Int8) : Inputs :=
  { s with station := { s.station with swType := Function.update s.station.swType i v } }

def storeBit (s : Inputs) (state : AlarmWord) (mask : ℕ) (set : Bool) : Inputs :=
  { s with station := s.station.onDev fun d => { d with alarm := d.alarm.storeBit state mask set } }

/-- The task goes on with `acts`. -/
def next (s : Inputs) (k : AlarmTask) (acts : List SwAct) : Inputs :=
  { s with task := Function.update s.task k ⟨acts, .fresh⟩ }

/-- The task is further in what it does. -/
def hold (s : Inputs) (k : AlarmTask) (stage : SwStage) : Inputs :=
  { s with task := Function.update s.task k ⟨(s.task k).todo, stage⟩ }

/-- One step of what a task does. -/
def runAct (s : Inputs) (k : AlarmTask) (acts : List SwAct) : SwAct → SwStage → Inputs
  | .setSWValue swVal, _ =>
      (s.setSwType 1 (swVal >>> 8).toUInt8.toInt8).next k (.setLow swVal.toUInt8.toInt8 :: acts)
  | .setLow v, _ => (s.setSwType 0 v).next k (.updateSW 1 :: .updateSW 0 :: .writeSWVal :: acts)
  | .updateSW i, .loaded set state => (s.storeBit state (swMask i) set).next k acts
  | .updateSW _, .chosen set => s.hold k (.loaded set s.alarmState)
  | .updateSW i, _ =>
      { s with station := { s.station with
        swAlarm := Function.update s.station.swAlarm i (s.sw i) } }.hold k (.chosen (s.active i))
  | .writeSWVal, _ =>
      { s with station := s.station.onDev fun d => { d with
        mem := Eeprom.at24cxxWrite d.mem swValAddr
          [(s.station.swType 0).toUInt8, (s.station.swType 1).toUInt8] } }.next k acts
  | .countType i up, .loadedType v => (s.setSwType i (countedSwType up v)).next k acts
  | .wrapType i up, .loadedType v =>
      ((wrappedSwType up v).elim s fun v' => s.setSwType i v').next k acts
  | .countType i _, _ | .wrapType i _, _ => s.hold k (.loadedType (s.station.swType i))
  | .change a set, .loaded _ state => (s.storeBit state a.mask set).next k acts
  | .change _ set, _ => s.hold k (.loaded set s.alarmState)

def runTask (s : Inputs) (k : AlarmTask) : Inputs :=
  match (s.task k).todo with
  | [] => s
  | act :: acts => s.runAct k acts act (s.task k).stage

def step (s : Inputs) : InputEvent → Inputs
  | .level pin v => { s with
      porta := Function.update s.porta pin v
      pending := fun i => s.pending i || decide (extiLine i = pin ∧ s.porta pin ≠ v) }
  | .evaluate i =>
      if s.pending i = true ∧ s.handling i = false then { s with
        station := s.station.updateSWAlarmState s.sw i
        handling := Function.update s.handling i true }
      else s
  | .clearPending i =>
      if s.handling i = true then { s with
        pending := Function.update s.pending i false
        handling := Function.update s.handling i false }
      else s
  | .call k c => if (s.task k).todo = [] then s.next k c.acts else s
  | .run k => s.runTask k
  | .alarm op => { s with station := s.station.onDev fun d => d.alarmStep op }

/-- The bit of an input in `ALARM_STATE`. -/
def bit (s : Inputs) (i : Fin 2) : Bool := getAlarmState s.alarmState (swMask i)

/-- The bit of an input is set exactly when the input has a type and is at its alarm level. -/
def Follows (s : Inputs) (i : Fin 2) : Prop := s.bit i = true ↔ s.station.swType i ≠ 0 ∧ s.sw i = true

/-- The line of an input is raised and the input not evaluated yet. -/
def Awaits (s : Inputs) (i : Fin 2) : Prop := s.pending i = true ∧ s.handling i = false

/-- Every interrupt that was raised on the line of an input has been handled. -/
def Handled (s : Inputs) (i : Fin 2) : Prop := s.pending i = false

end Inputs

/-- It comes to the evaluation of the input. -/
def SwAct.evaluates (i : Fin 2) : SwAct → Bool
  | setSWValue _ | setLow _ => true
  | updateSW j => i = j
  | _ => false

namespace Inputs

variable {s : Inputs} {i j : Fin 2} {k : AlarmTask}

/-- A call of `setSWValue` is under way that has still to store the bit of the input. -/
def Updating (s : Inputs) (i : Fin 2) : Prop := ∃ k, ∃ a ∈ (s.task k).todo, a.evaluates i = true

/-- The input will be evaluated or its bit is right. -/
def Tracked (s : Inputs) : Prop := ∀ i, s.Awaits i ∨ s.Updating i ∨ s.Follows i

/-- The rest of the handlers that are due. -/
def HandlerEvent : InputEvent → Prop
  | .evaluate _ | .clearPending _ => True
  | _ => False

/-- The type of an input at its alarm level stays zero or stays non-zero, unless it will be
    evaluated. -/
def TypeOk (s : Inputs) (i : Fin 2) (v : Int8) : Prop :=
  s.sw i = true → (s.station.swType i ≠ 0 ↔ v ≠ 0) ∨ s.Awaits i ∨ s.Updating i

/-- A store of `ALARM_STATE` writes back the bit of an input that nobody has changed since the word was
    loaded, or that will be evaluated; and `updateSWAlarmState` stores what the test of the input still
    gives. -/
def ActOk (s : Inputs) (k : AlarmTask) (acts : List SwAct) : SwAct → SwStage → Prop
  | .updateSW j, .loaded set state => ∀ i, s.Awaits i ∨ (s.next k acts).Updating i ∨
      if i = j then set = s.active i else getAlarmState state (swMask i) = s.bit i
  | .change _ _, .loaded _ state => ∀ i, s.Awaits i ∨ s.Updating i ∨
      getAlarmState state (swMask i) = s.bit i
  | .countType i up, .loadedType v => s.TypeOk i (countedSwType up v)
  | .wrapType i up, .loadedType v => ∀ v' ∈ wrappedSwType up v, s.TypeOk i v'
  | _, _ => True

def RunOk (s : Inputs) (k : AlarmTask) : Prop :=
  match (s.task k).todo with
  | [] => True
  | act :: acts => s.ActOk k acts act (s.task k).stage

/-- An input that has a type changes its level only if that raises its line, and not while the
    handler is about to clear it, or if the input will be evaluated already; a task stores only what
    is still so. -/
def EventOk (s : Inputs) : InputEvent → Prop
  | .level pin v => ∀ i, swPin i = pin → s.porta pin ≠ v → s.station.swType i ≠ 0 →
      s.Awaits i ∨ s.Updating i ∨ extiLine i = pin ∧ s.handling i = false
  | .run k => s.RunOk k
  | _ => True

/-! ### Evaluating an input -/

theorem follows_iff_bit : s.Follows i ↔ s.bit i = s.active i := by
  rw [Follows, active]
  cases s.bit i <;> cases s.sw i <;> simp

theorem bit_updateSWAlarmState (st : Station) (pins : Fin 2 → Bool) (i j : Fin 2) :
    getAlarmState (st.updateSWAlarmState pins j).dev.alarm.alarmState (swMask i) =
      if i = j then decide (st.swType j ≠ 0) && pins j
      else getAlarmState st.dev.alarm.alarmState (swMask i) := by
  rw [updateSWAlarmState_bit _ _ _ (swMask_lt i), if_congr swMask_inj rfl rfl]

/-- Both inputs are evaluated, the second one first. -/
theorem bit_updateBoth (st : Station) (pins : Fin 2 → Bool) (i : Fin 2) :
    getAlarmState (updateSWAlarmState pins 0 (updateSWAlarmState pins 1 st)).dev.alarm.alarmState
    (swMask i) =
      (decide (st.swType i ≠ 0) && pins i) := by
  rw [bit_updateSWAlarmState, bit_updateSWAlarmState]
  rcases zone_cases i with rfl | rfl
  · rw [if_pos rfl]
    rfl
  · rw [if_neg (by decide), if_pos rfl]

/-- After the start both bits are right. -/
theorem tracked_powerOn (porta : ℕ → Bool) (st : Station) : (powerOn porta st).Tracked :=
  fun _ => Or.inr (Or.inr (follows_iff_bit.mpr (bit_updateBoth ..)))

/-! ### Other alarms -/

theorem swMask_ne_mask : ∀ (i : Fin 2) (f : Zone) (c : Cond), swMask i ≠ Alarm.mask f c := by
  intro i f c
  revert i f
  cases c <;> decide

theorem swMask_ne_other (i : Fin 2) (a : OtherAlarm) : swMask i ≠ a.mask := by
  cases a with
  | fangChai =>
    revert i
    decide
  | zone f c => exact swMask_ne_mask i f c

theorem otherMask_lt (a : OtherAlarm) : a.mask < 16 := by
  cases a with
  | fangChai => decide
  | zone f c => exact Dev.mask_lt f c

/-- No other alarm touches the bits of the inputs. -/
theorem bit_alarmStep (d : Dev) (op : Dev.AlarmOp) (i : Fin 2) :
    getAlarmState (d.alarmStep op).alarm.alarmState (swMask i) =
      getAlarmState d.alarm.alarmState (swMask i) := by
  cases op with
  | check f r => exact Dev.adcCheckHandler_bit_other r (swMask_lt i) (swMask_ne_mask i f)
  | fangChaiCheck pin =>
    have hne : swMask i ≠ abFchMask := swMask_ne_other i .fangChai
    rw [Dev.alarmStep, Dev.fangChaiCheck_bit, if_neg hne]
  | tim3 => rw [Dev.alarmStep, Dev.tim3_alarmState]
  | tim5 => rw [Dev.alarmStep, Dev.tim5_alarmState]
  | _ => rfl

/-- A store writes back the other bits as they were loaded. -/
theorem bit_storeBit {mask : ℕ} (hmask : mask < 16) (state : AlarmWord) (set : Bool) (i : Fin 2) :
    (s.storeBit state mask set).bit i =
      if swMask i = mask then set else getAlarmState state (swMask i) := by
  cases set with
  | true =>
    refine (get_set hmask state (swMask i)).trans ?_
    split_ifs with h
    · rw [decide_eq_true h.symm, Bool.or_true]
    · rw [decide_eq_false (Ne.symm h), Bool.or_false]
  | false =>
    refine (get_clear (swMask_lt i) state mask).trans ?_
    split_ifs with h
    · rw [decide_eq_true h.symm, Bool.not_true, Bool.and_false]
    · rw [decide_eq_false (Ne.symm h), Bool.not_false, Bool.and_true]

/-! ### Tasks -/

theorem next_task_self {acts : List SwAct} : (s.next k acts).task k = ⟨acts, .fresh⟩ :=
  Function.update_self ..

theorem next_task_of_ne {l : AlarmTask} (hl : l ≠ k) {acts : List SwAct} :
    (s.next k acts).task l = s.task l := Function.update_of_ne hl ..

/-- What a task is at counts with what it has still to do. -/
theorem updating_iff {act : SwAct} {acts : List SwAct} (htodo : (s.task k).todo = act :: acts) :
    s.Updating i ↔ act.evaluates i = true ∨ (s.next k acts).Updating i := by
  constructor
  · rintro ⟨l, a, ha, hev⟩
    rcases eq_or_ne l k with rfl | hl
    · rw [htodo] at ha
      rcases List.mem_cons.mp ha with rfl | ha
      · exact Or.inl hev
      · exact Or.inr ⟨l, a, by rw [next_task_self]; exact ha, hev⟩
    · exact Or.inr ⟨l, a, by rw [next_task_of_ne hl]; exact ha, hev⟩
  · rintro (hev | ⟨l, a, ha, hev⟩)
    · exact ⟨k, act, by rw [htodo]; exact List.mem_cons_self .., hev⟩
    · refine ⟨l, a, ?_, hev⟩
      rcases eq_or_ne l k with rfl | hl
      · rw [next_task_self] at ha
        rw [htodo]
        exact List.mem_cons_of_mem _ ha
      · rwa [next_task_of_ne hl] at ha

/-- A task that goes on with the evaluation of an input. -/
theorem updating_next_of_mem {a : SwAct} {acts : List SwAct} (ha : a ∈ acts)
    (hev : a.evaluates i = true) :
    (s.next k acts).Updating i := ⟨k, a, by rw [next_task_self]; exact ha, hev⟩

theorem updating_hold {stage : SwStage} : (s.hold k stage).Updating i ↔ s.Updating i := by
  have htodo (l : AlarmTask) : ((s.hold k stage).task l).todo = (s.task l).todo := by
    rcases eq_or_ne l k with rfl | hl
    · have hself : (s.hold l stage).task l = ⟨(s.task l).todo, stage⟩ := Function.update_self ..
      rw [hself]
    · have hother : (s.hold k stage).task l = s.task l := Function.update_of_ne hl ..
      rw [hother]
  simp only [Updating, htodo]

/-- What changes neither a line nor what a task has to do, nor what is right, leaves the inputs
    tracked. -/
theorem tracked_hold {stage : SwStage} (h : s.Tracked) : (s.hold k stage).Tracked := fun i => by
  rw [updating_hold]
  exact h i

/-- A type of an input that stays zero or stays non-zero leaves its bit right. -/
theorem follows_setSwType (v : Int8) (h : s.Follows i) : (s.setSwType i v).Follows i ↔
    (s.sw i = true → (s.station.swType i ≠ 0 ↔ v ≠ 0)) := by
  have htype : (s.setSwType i v).station.swType i = v := Function.update_self ..
  have h' : s.bit i = true ↔ s.station.swType i ≠ 0 ∧ s.sw i = true := h
  have hbit : (s.setSwType i v).bit i = s.bit i := rfl
  have hsw : (s.setSwType i v).sw i = s.sw i := rfl
  rw [Follows, hbit, htype, hsw, h']
  tauto

theorem follows_setSwType_ne {v : Int8} (hij : i ≠ j) : (s.setSwType j v).Follows i ↔ s.Follows i := by
  have htype : (s.setSwType j v).station.swType i = s.station.swType i := Function.update_of_ne hij ..
  have hbit : (s.setSwType j v).bit i = s.bit i := rfl
  have hsw : (s.setSwType j v).sw i = s.sw i := rfl
  rw [Follows, hbit, htype, hsw, Follows]

/-- A count of a type, which nobody evaluates, leaves the inputs tracked exactly under its condition. -/
theorem setSwType_tracked_iff (h : s.Tracked) (v : Int8) {act : SwAct} {acts : List SwAct}
    (htodo : (s.task k).todo = act :: acts) (hact : ∀ i, act.evaluates i = false) :
    ((s.setSwType j v).next k acts).Tracked ↔ s.TypeOk j v := by
  have hupd (i : Fin 2) : ((s.setSwType j v).next k acts).Updating i ↔ s.Updating i := by
    rw [updating_iff htodo, hact i]
    simp only [Bool.false_eq_true, false_or]
    rfl
  have hself : (s.Awaits j ∨ s.Updating j ∨ (s.setSwType j v).Follows j) ↔ s.TypeOk j v := by
    by_cases hdue : s.Awaits j ∨ s.Updating j
    · exact iff_of_true (or_assoc.mp (Or.inl hdue)) fun _ => Or.inr hdue
    · have hf : s.Follows j := (or_assoc.mpr (h j)).resolve_left hdue
      rw [← or_assoc, or_iff_right hdue, follows_setSwType v hf, TypeOk]
      simp only [or_iff_left hdue]
  constructor
  · intro hall
    have hj := hall j
    rw [hupd] at hj
    exact hself.mp hj
  · intro hok i
    rw [hupd]
    rcases eq_or_ne i j with rfl | hij
    · exact hself.mpr hok
    · refine (h i).imp id fun hi => hi.imp id fun hf => ?_
      exact (follows_setSwType_ne hij).mpr hf

/-- A store leaves the inputs tracked exactly when the bits it writes back are right, as far as the
    inputs are not evaluated again. -/
theorem storeBit_tracked_iff (h : s.Tracked) {mask : ℕ} (hmask : mask < 16) (state : AlarmWord)
    (set : Bool)
    {act : SwAct} {acts : List SwAct} (htodo : (s.task k).todo = act :: acts)
    (hact : ∀ i, act.evaluates i = decide (swMask i = mask)) :
    ((s.storeBit state mask set).next k acts).Tracked ↔ ∀ i, s.Awaits i ∨ (s.next k acts).Updating i ∨
      if swMask i = mask then set = s.active i else getAlarmState state (swMask i) = s.bit i := by
  refine forall_congr' fun i => ?_
  refine or_congr_right' fun hwait => or_congr_right' fun hnext => ?_
  have hfollows : ((s.storeBit state mask set).next k acts).Follows i ↔
      (if swMask i = mask then set else getAlarmState state (swMask i)) = s.active i := by
    rw [← bit_storeBit hmask]
    exact follows_iff_bit
  rw [hfollows]
  split_ifs with hi
  · exact Iff.rfl
  · -- the input is not the one that is stored, and nobody evaluates it: its bit is right so far
    have hnot : ¬s.Updating i := by
      rw [updating_iff htodo, hact, decide_eq_true_eq]
      exact not_or_intro hi hnext
    have hf := ((h i).resolve_left hwait).resolve_left hnot
    rw [follows_iff_bit] at hf
    rw [hf]

theorem runAct_tracked_iff (h : s.Tracked) {act : SwAct} {acts : List SwAct}
    (htodo : (s.task k).todo = act :: acts) (stage : SwStage) :
    (s.runAct k acts act stage).Tracked ↔ s.ActOk k acts act stage := by
  cases act with
  | setSWValue swVal =>
    exact iff_of_true (fun i => Or.inr (Or.inl (updating_next_of_mem (List.mem_cons_self ..) rfl)))
      trivial
  | setLow v =>
    refine iff_of_true (fun i => Or.inr (Or.inl ?_)) trivial
    refine updating_next_of_mem (a := .updateSW i) ?_ (decide_eq_true rfl)
    rcases zone_cases i with rfl | rfl <;> simp
  | updateSW j =>
    cases stage with
    | loaded set state =>
      have hact (i : Fin 2) : (SwAct.updateSW j).evaluates i = decide (swMask i = swMask j) :=
        decide_eq_decide.mpr swMask_inj.symm
      refine (storeBit_tracked_iff h (swMask_lt j) state set htodo hact).trans ?_
      simp only [swMask_inj]
      rfl
    | chosen set => exact iff_of_true (tracked_hold h) trivial
    | _ => exact iff_of_true (tracked_hold (s := { s with station := _ }) h) trivial
  | writeSWVal =>
    refine iff_of_true (fun i => ?_) trivial
    have hi := h i
    rw [updating_iff htodo] at hi
    exact hi.imp_right fun hi => hi.imp_left fun hu => hu.resolve_left Bool.false_ne_true
  | countType j up =>
    cases stage with
    | loadedType v => exact setSwType_tracked_iff h _ htodo fun _ => rfl
    | _ => exact iff_of_true (tracked_hold h) trivial
  | wrapType j up =>
    cases stage with
    | loadedType v =>
      change (((wrappedSwType up v).elim s fun v' => s.setSwType j v').next k acts).Tracked ↔
        ∀ v' ∈ wrappedSwType up v, s.TypeOk j v'
      cases wrappedSwType up v with
      | none =>
        refine iff_of_true (fun i => ?_) (by simp)
        have hi := h i
        rw [updating_iff htodo] at hi
        exact hi.imp_right fun hi => hi.imp_left fun hu => hu.resolve_left Bool.false_ne_true
      | some v' =>
        refine (setSwType_tracked_iff h v' htodo fun _ => rfl).trans ?_
        simp
    | _ => exact iff_of_true (tracked_hold h) trivial
  | change a set =>
    cases stage with
    | loaded set' state =>
      have hact (i : Fin 2) : (SwAct.change a set).evaluates i = decide (swMask i = a.mask) :=
        (decide_eq_false (swMask_ne_other i a)).symm
      refine (storeBit_tracked_iff h (otherMask_lt a) state set htodo hact).trans ?_
      refine forall_congr' fun i => or_congr_right ?_
      have hupd : s.Updating i ↔ (s.next k acts).Updating i := by
        rw [updating_iff htodo]
        exact or_iff_right Bool.false_ne_true
      rw [if_neg (swMask_ne_other i a), hupd]
    | _ => exact iff_of_true (tracked_hold h) trivial

theorem runTask_tracked_iff (h : s.Tracked) (k : AlarmTask) : (s.runTask k).Tracked ↔ s.RunOk k := by
  rw [runTask, RunOk]
  cases htodo : (s.task k).todo with
  | nil => exact iff_of_true h trivial
  | cons act acts => exact runAct_tracked_iff h htodo _

/-- A task that begins a call forgets nothing. -/
theorem tracked_call (h : s.Tracked) (c : SwCall) : (s.step (.call k c)).Tracked := by
  rw [step]
  split_ifs with hidle
  · refine fun i => (h i).imp_right fun hi => hi.imp_left ?_
    rintro ⟨l, a, ha, hev⟩
    have hl : l ≠ k := by
      rintro rfl
      rw [hidle] at ha
      exact List.not_mem_nil ha
    exact ⟨l, a, by rw [next_task_of_ne hl]; exact ha, hev⟩
  · exact h

/-! ### One event -/

/-- A change of a level keeps the bit right only where the input has no type or another pin. -/
theorem follows_level_iff (pin : ℕ) (v : Bool) (h : s.Follows i) :
    (s.step (.level pin v)).Follows i ↔
      ¬(swPin i = pin ∧ s.porta pin ≠ v ∧ s.station.swType i ≠ 0) := by
  have hbit : (s.step (.level pin v)).bit i = s.bit i := rfl
  have htype : (s.step (.level pin v)).station.swType i = s.station.swType i := rfl
  have hsw : (s.step (.level pin v)).sw i = if swPin i = pin then v else s.sw i := by
    simp only [sw, step, Function.update_apply]
  have h' : s.bit i = true ↔ s.station.swType i ≠ 0 ∧ s.sw i = true := h
  rw [Follows, hbit, htype, hsw, h']
  by_cases hpin : swPin i = pin
  · subst hpin
    rw [if_pos rfl]
    by_cases ht : s.station.swType i = 0
    · simp [ht]
    · have hlevel : s.sw i = s.porta (swPin i) := rfl
      rw [hlevel]
      cases s.porta (swPin i) <;> cases v <;> simp [ht]
  · simp [hpin]

theorem awaits_level_iff (pin : ℕ) (v : Bool) : (s.step (.level pin v)).Awaits i ↔
    s.Awaits i ∨ extiLine i = pin ∧ s.porta pin ≠ v ∧ s.handling i = false := by
  simp only [Awaits, step, Bool.or_eq_true, decide_eq_true_eq]
  tauto

/-- An event leaves the inputs tracked exactly under its condition. -/
theorem step_tracked_iff (h : s.Tracked) (ev : InputEvent) : (s.step ev).Tracked ↔ s.EventOk ev := by
  cases ev with
  | level pin v =>
    refine forall_congr' fun i => ?_
    have hupd : (s.step (.level pin v)).Updating i ↔ s.Updating i := Iff.rfl
    rw [awaits_level_iff, hupd]
    by_cases hdue : s.Awaits i ∨ s.Updating i
    · exact iff_of_true (by tauto) fun _ _ _ => or_assoc.mp (Or.inl hdue)
    · rw [follows_level_iff pin v ((or_assoc.mpr (h i)).resolve_left hdue)]
      tauto
  | evaluate k =>
    refine iff_of_true (fun i => ?_) trivial
    rw [step]
    split_ifs with hdue
    · rcases eq_or_ne i k with rfl | hik
      · right
        right
        rw [follows_iff_bit]
        exact (bit_updateSWAlarmState ..).trans (if_pos rfl)
      · refine (h i).imp (fun hw => ?_) fun hi => hi.imp id fun hf => ?_
        · exact ⟨hw.1, (Function.update_of_ne hik ..).trans hw.2⟩
        · rw [follows_iff_bit] at hf ⊢
          exact ((bit_updateSWAlarmState ..).trans (if_neg hik)).trans hf
    · exact h i
  | clearPending k =>
    refine iff_of_true (fun i => ?_) trivial
    rw [step]
    split_ifs with hrun
    · rcases eq_or_ne i k with rfl | hik
      · right
        refine (h i).resolve_left fun hw => ?_
        exact Bool.false_ne_true (hw.2.symm.trans hrun)
      · refine (h i).imp_left fun hw => ?_
        exact ⟨(Function.update_of_ne hik ..).trans hw.1, (Function.update_of_ne hik ..).trans hw.2⟩
    · exact h i
  | call k c => exact iff_of_true (tracked_call h c) trivial
  | run k => exact runTask_tracked_iff h k
  | alarm op =>
    refine iff_of_true (fun i => (h i).imp_right fun hi => hi.imp id fun hf => ?_) trivial
    have hbit : (s.step (.alarm op)).bit i = s.bit i := bit_alarmStep ..
    rw [Follows, hbit]
    exact hf

/-! ### A call without interruption -/

theorem runTask_eq {act : SwAct} {acts : List SwAct} {stage : SwStage}
    (htask : s.task k = ⟨act :: acts, stage⟩) : s.runTask k = s.runAct k acts act stage := by
  rw [runTask, htask]

theorem hold_task_self {acts : List SwAct} {stage : SwStage} :
    ((s.next k acts).hold k stage).task k = ⟨acts, stage⟩ := by
  rw [hold, next_task_self]
  exact Function.update_self ..

theorem hold_hold {stage stage' : SwStage} : (s.hold k stage).hold k stage' = s.hold k stage' := by
  simp only [hold, Function.update_self, Function.update_idem]

/-- The load and the store together are `Set_Alarm_State_Util_Clear` or `CLEAR_ALARM_STATE`. -/
theorem storeBit_self (a : Alarm) (mask : ℕ) (set : Bool) : a.storeBit a.alarmState mask set =
    if set then a.setAlarmStateUtilClear mask else a.clear mask := by
  cases set <;> rfl

/-- The three steps of `updateSWAlarmState` in a task. -/
theorem run_updateSW {acts : List SwAct} (i : Fin 2) :
    (((s.next k (.updateSW i :: acts)).runTask k).runTask k).runTask k =
      Inputs.next { s with station := s.station.updateSWAlarmState s.sw i } k acts := by
  have hread : (s.next k (.updateSW i :: acts)).runTask k = Inputs.hold (Inputs.next { s with
      station := { s.station with swAlarm := Function.update s.station.swAlarm i (s.sw i) } } k
        (.updateSW i :: acts)) k (.chosen (s.active i)) := runTask_eq next_task_self
  have hstate : s.station.updateSWAlarmState s.sw i = { s.station with
      swAlarm := Function.update s.station.swAlarm i (s.sw i)
      dev := { s.station.dev with
        alarm := s.station.dev.alarm.storeBit s.station.dev.alarm.alarmState (swMask i)
          (s.active i) } } := by
    rw [storeBit_self, updateSWAlarmState]
    simp only [active, Bool.and_eq_true, decide_eq_true_eq]
  rw [hread, runTask_eq hold_task_self, runAct, hold_hold, runTask_eq hold_task_self, runAct, hstate]
  simp only [next, hold, storeBit, onDev, Function.update_idem]
  rfl

/-- A call of `setSWValue` that nothing interrupts: nine steps. -/
theorem run_setSWValue (hidle : s.task k = ⟨[], .fresh⟩) (swVal : UInt16) :
    (.call k (.setSWValue swVal) :: List.replicate 9 (.run k)).foldl step s =
      { s with station := s.station.setSWVal s.sw swVal } := by
  have hcall : s.step (.call k (.setSWValue swVal)) = s.next k [.setSWValue swVal] := by
    rw [step, hidle, if_pos rfl]
    rfl
  have htypes : Function.update (Function.update s.station.swType 1 (swVal >>> 8).toUInt8.toInt8) 0
      swVal.toUInt8.toInt8 = ![swVal.toUInt8.toInt8, (swVal >>> 8).toUInt8.toInt8] := by
    funext i
    rcases zone_cases i with rfl | rfl <;> rfl
  have hend : Function.update s.task k ⟨[], .fresh⟩ = s.task := by rw [← hidle, Function.update_eq_self]
  rw [List.foldl_cons, hcall]
  simp only [List.replicate, List.foldl_cons, List.foldl_nil, step]
  rw [runTask_eq next_task_self, runAct, runTask_eq next_task_self, runAct, run_updateSW, run_updateSW,
    runTask_eq next_task_self, runAct]
  simp only [next, setSwType, onDev, Function.update_idem, htypes, hend]
  rfl

/-! ### The run -/

/-- Tracked inputs are the ones whose bits are right as soon as the handlers that are due have run
    and no call is under way that sets them. -/
theorem tracked_iff : s.Tracked ↔ ∀ evs : List InputEvent, (∀ ev ∈ evs, HandlerEvent ev) →
    ∀ i, (evs.foldl step s).Handled i → ¬(evs.foldl step s).Updating i →
    (evs.foldl step s).Follows i := by
  constructor
  · intro h evs hevs i hdone hupd
    have hstep : ∀ ev ∈ evs, ∀ s : Inputs, s.Tracked → (s.step ev).Tracked := fun ev hev s hs => by
      refine (step_tracked_iff hs ev).mpr ?_
      have hh := hevs ev hev
      cases ev with
      | evaluate i => trivial
      | clearPending i => trivial
      | _ => exact absurd hh id
    have hend := Run.foldl_inv_of_mem Tracked hstep h
    rcases hend i with hw | hu | hf
    · exact absurd (hdone.symm.trans hw.1) Bool.false_ne_true
    · exact absurd hu hupd
    · exact hf
  · intro h i
    by_cases hwait : s.Awaits i
    · exact Or.inl hwait
    by_cases hupd : s.Updating i
    · exact Or.inr (Or.inl hupd)
    -- the handler of the line, if it runs, has evaluated the input and only clears the line
    right
    right
    have hclear := h [.clearPending i] (by simp [HandlerEvent]) i
    rw [List.foldl_cons, List.foldl_nil, step] at hclear
    split_ifs at hclear with hrun
    · exact hclear (Function.update_self ..) hupd
    · refine hclear (Bool.eq_false_of_not_eq_true fun hp => hwait ⟨hp, ?_⟩) hupd
      exact Bool.eq_false_of_not_eq_true hrun

/-- Over a run from the start the bits of the inputs are right whenever the interrupts raised so far
    have been handled and no call of `setSWValue` has still to store them, exactly when every event
    meets its condition. -/
theorem follows_iff (porta : ℕ → Bool) (st : Station) (evs : List InputEvent) :
    (∀ p ∈ Run.steps step (powerOn porta st) evs, ∀ hs : List InputEvent, (∀ ev ∈ hs, HandlerEvent ev) →
      ∀ i, (hs.foldl step (p.1.step p.2)).Handled i → ¬(hs.foldl step (p.1.step p.2)).Updating i →
        (hs.foldl step (p.1.step p.2)).Follows i) ↔
    ∀ p ∈ Run.steps step (powerOn porta st) evs, p.1.EventOk p.2 := by
  rw [← Run.steps_iff Tracked EventOk (fun _ ev h => step_tracked_iff h ev) evs _
    (tracked_powerOn porta st)]
  exact forall₂_congr fun p _ => tracked_iff.symm

/-- An input is given a type, by a call that nothing interrupts. -/
def given (swVal : UInt16) : List InputEvent :=
  .call .main (.setSWValue swVal) :: List.replicate 9 (.run .main)

/-- SW1 goes to the alarm level: no interrupt is raised. SW2 does so while `watch_task` has loaded
    `ALARM_STATE` to clear another bit: its interrupt is handled before the word is stored. -/
def missedAlarm : Fin 2 → List InputEvent :=
  ![given 1 ++ [.level 11 true],
    given 0x100 ++ [.call .watch (.change .fangChai false), .run .watch, .level 12 true, .evaluate 1,
      .clearPending 1, .run .watch]]

/-- After it every interrupt has been handled, every task is idle, and the alarm is missed. -/
theorem missedAlarm_ends (i : Fin 2) :
    (∀ j, ((missedAlarm i).foldl step (powerOn (fun _ => false) blank)).Handled j) ∧
      (∀ k, (((missedAlarm i).foldl step (powerOn (fun _ => false) blank)).task k).todo = []) ∧
        ¬((missedAlarm i).foldl step (powerOn (fun _ => false) blank)).Follows i := by
  have hdone : ∀ i j, ((missedAlarm i).foldl step (powerOn (fun _ => false) blank)).pending
    j = false := by
    decide +kernel
  have hbit : ∀ i, ((missedAlarm i).foldl step (powerOn (fun _ => false) blank)).bit i ≠
      ((missedAlarm i).foldl step (powerOn (fun _ => false) blank)).active i := by decide +kernel
  refine ⟨hdone i, ?_, fun hf => hbit i (follows_iff_bit.mp hf)⟩
  rcases zone_cases i with rfl | rfl
  · rintro (_ | _ | _) <;> rfl
  · rintro (_ | _ | _) <;> rfl

theorem not_follows : ¬ ∀ (porta : ℕ → Bool) (st : Station) (evs : List InputEvent) (i : Fin 2),
    (∀ j, (evs.foldl step (powerOn porta st)).Handled j) →
      (∀ k, ((evs.foldl step (powerOn porta st)).task k).todo = []) →
        (evs.foldl step (powerOn porta st)).Follows i := by
  intro h
  obtain ⟨hdone, hidle, hmissed⟩ := missedAlarm_ends 0
  exact hmissed (h _ _ _ 0 hdone hidle)

end Inputs

end VectorFence
