import VectorFence.Adc
import VectorFence.Alarm.Basic

/-! The menu of the operator panel. `main_task` of `main.c` waits for a key and runs the case of the
    screen it is on. The cases come in a few shapes:

        menu     rows, one of which is chosen           ──ENTER──▶ one screen for each row
        page     something to read                      ──ENTER──▶ back, where the source has it
        editor   rows that ENTER opens for editing      NormalState ◀──▶ ModifyState
        digits   a number edited digit by digit
        wait     a calibration is running               ──done──▶ its result

    In each of them ESC goes to one fixed screen. What the screens show and the values their editors
    change are left out: no key reads them to choose the next screen. -/

namespace VectorFence

/-- The codes of the keys. -/
inductive Key where | none | esc | enter | up | down | left | right
  deriving DecidableEq, Repr

/-- The screens of `DisplayMenu.h`. -/
inductive Screen where
  | initScreen | runScreen | setScreen | inqScreen | verScreen | setSysScreen | setFangQuParaScreen
  | setAFangQuParaScreen | setBFangQuParaScreen | setBuFangParaScreen | setClearRecordScreen
  | inqSysParaScreen | inqFangQuParaScreen | inqAFangQuParaScreen | inqBFangQuParaScreen
  | inqBuFangParaScreen | inqAlarmRecordScreen | setDateTimeScreen | setEthParaScreen
  | setRS485ParaScreen | setAAreaBuFangParaScreen | setBAreaBuFangParaScreen
  | inqAAreaBuFangParaScreen | inqBAreaBuFangParaScreen | inqDuanLuAlarmScreen
  | inqDuanXianAlarmScreen | inqFangChaiAlarmRecordScreen | inqEthParaScreen | inqRS485ParaScreen
  | setMacAddrScreen | setIpAddrScreen | setSubnetMaskScreen | setGateWayScreen | inqMacAddrScreen
  | inqIpAddrScreen | inqSubnetMaskScreen | inqGateWayScreen | inqAAreaDuanLuAlarmRecordScreen
  | inqBAreaDuanLuAlarmRecordScreen | inqAAreaDuanXianAlarmRecordScreen
  | inqBAreaDuanXianAlarmRecordScreen | clearDuanLuAlarmRecordScreen | clearDuanXianAlarmRecordScreen
  | inputPasswordScreen | passwordErrorScreen | alarmTypeListScreen | setExtDeviceTypeScreen
  | userLoginScreen | superUserRootScreen | ordinaryUserRootScreen | tensionMonitorScreen
  | aFangQuMonitorScreen | bFangQuMonitorScreen | setAlarmThresholdScreen | calibrationSetScreen
  | zeroCalibrationScreen | datumCalibrationScreen | inqAlarmThresholdScreen
  | inqCalibrationValScreen | inqExtDeviceTypeScreen | inqZeroValScreen | inqDatumValScreen
  | azeroCalibrationScreen | bzeroCalibrationScreen | adatumCalibrationScreen
  | bdatumCalibrationScreen | notAtValidRangeScreen | caliOverAareaZeroValScreen
  | caliOverBareaZeroValScreen | caliOverAareaDatumValScreen | caliOverBareaDatumValScreen
  | inqAareaZeroValScreen | inqBareaZeroValScreen | inqAareaDatumValScreen | inqBareaDatumValScreen
  | setFullScaleScreen | inqFullScaleScreen | setBaseAutoCalibrateTimeScreen
  | inqBaseAutoCalibrateTimeScreen
  deriving DecidableEq, Repr

/-- `UserId`. -/
inductive User where | superUser | ordinaryUser
  deriving DecidableEq, Repr

/-- `flag_PageState`. -/
inductive PageState where | modifyState | normalState
  deriving DecidableEq, Repr

/-- The variables that choose the next screen. -/
structure Lcd where
  currentScreen : Screen
  rowPoint : UInt8
  rowFxPos : ℤ
  userId : User
  inputPassword : List UInt8
  flagPageState : PageState
  noKeyNum : ℕ
  deriving DecidableEq, Repr

/-- What `main_task` reads of the rest of the device in one turn: the alarm word when it looks for an
    idle panel and when it shows the alarm list, the pin `FIELD_FLAG_S0D1` and the calibration. -/
structure Env where
  alarmIdle : AlarmWord
  alarmList : AlarmWord
  fieldFlagS0D1 : Bool
  calibratingFlag : UInt8
  calibrateEn : Zone → UInt8

/-- The word the panel shows: bit 2 of `config_code` tells whether a confirmed alarm is held. -/
def Alarm.shown (s : Alarm) : AlarmWord := if s.configBit 2 then s.alarmState else s.alarmStateDelay

def lcdSuperPassword : List UInt8 := [49, 50, 51, 52, 53, 54]
def lcdOrdinaryPassword : List UInt8 := [48, 48, 48, 48, 48, 48]

/-- `"0$$$$$"`: the password editor before the first digit. -/
def blankPassword : List UInt8 := [48, 36, 36, 36, 36, 36]

namespace Lcd

def powerOn : Lcd where
  currentScreen := .runScreen
  rowPoint := 0
  rowFxPos := 0
  userId := .ordinaryUser
  inputPassword := blankPassword
  flagPageState := .normalState
  noKeyNum := 0

/-- The variables a key may set, beside the screen. -/
structure Update where
  row : Option UInt8 := none
  fx : Option ℤ := none
  page : Option PageState := none
  password : Option (List UInt8) := none

def set (u : Update) (s : Lcd) : Lcd :=
  { s with
    rowPoint := u.row.getD s.rowPoint
    rowFxPos := u.fx.getD s.rowFxPos
    flagPageState := u.page.getD s.flagPageState
    inputPassword := u.password.getD s.inputPassword }

/-- A change of screen; most of them set `row_point = 1`. -/
structure Jump where
  target : Screen
  upd : Update := { row := some 1 }

def go (j : Jump) (s : Lcd) : Lcd := { s.set j.upd with currentScreen := j.target }

@[simp] theorem set_screen (u : Update) (s : Lcd) : (s.set u).currentScreen = s.currentScreen := rfl

@[simp] theorem set_user (u : Update) (s : Lcd) : (s.set u).userId = s.userId := rfl

@[simp] theorem go_screen (j : Jump) (s : Lcd) : (s.go j).currentScreen = j.target := rfl

@[simp] theorem go_user (j : Jump) (s : Lcd) : (s.go j).userId = s.userId := rfl

/-- `row_point --; if(row_point < 1) row_point = rows;` -/
def rowUp (rows row : UInt8) : UInt8 := if row - 1 < 1 then rows else row - 1

/-- `row_point ++; if(row_point > rows) row_point = 1;` -/
def rowDown (rows row : UInt8) : UInt8 := if row + 1 > rows then 1 else row + 1

/-- The choice of row `row_point`, the first row being 1. -/
def choice {α : Type} (xs : List α) (row : UInt8) : Option α :=
  match row.toNat with
  | 0 => none
  | n + 1 => xs[n]?

theorem choice_mem {α : Type} {xs : List α} {row : UInt8} {x : α} (h : x ∈ choice xs row) : x ∈ xs := by
  rw [choice] at h
  split at h
  · simp at h
  · exact List.mem_of_getElem? h

/-- The two moves of `row_fx_pos` among `last` digits. -/
def fxLeft (last fx : ℤ) : ℤ := if fx - 1 < 1 then last else fx - 1

def fxRight (last fx : ℤ) : ℤ := if fx + 1 > last then 1 else fx + 1

/-- An editor: leaving it, moving between its rows, opening a row, giving up and accepting the edit,
    and the number of positions in a row. -/
structure Editor where
  esc : Jump
  up : UInt8 → UInt8
  down : UInt8 → UInt8
  start : UInt8 → Option Update
  cancel : Update
  accept : Update
  positions : Option ℤ

/-- The code of one screen. -/
inductive Handler where
  | menu (rows : UInt8) (esc : Jump) (enter : List Jump)
  | page (esc : Jump) (enter : Option Jump)
  | editor (ed : Editor)
  | digits (esc : Jump) (left right : ℤ → ℤ)
  | wait (done : Bool) (next : Screen)
  | idle

namespace Handler

/-- One key on a screen. -/
def press : Handler → Key → Lcd → Lcd
  | menu rows esc enter, k, s =>
      match k with
      | .esc => s.go esc
      | .enter => (choice enter s.rowPoint).elim s s.go
      | .up => { s with rowPoint := rowUp rows s.rowPoint }
      | .down => { s with rowPoint := rowDown rows s.rowPoint }
      | _ => s
  | page esc enter, k, s =>
      match k with
      | .esc => s.go esc
      | .enter => enter.elim s s.go
      | _ => s
  | editor ed, k, s =>
      match s.flagPageState, k with
      | .normalState, .esc => s.go ed.esc
      | .normalState, .enter => (ed.start s.rowPoint).elim s s.set
      | .normalState, .up => { s with rowPoint := ed.up s.rowPoint }
      | .normalState, .down => { s with rowPoint := ed.down s.rowPoint }
      | .modifyState, .esc => s.set ed.cancel
      | .modifyState, .enter => s.set ed.accept
      | .modifyState, .left => ed.positions.elim s fun n => { s with rowFxPos := fxLeft n s.rowFxPos }
      | .modifyState, .right => ed.positions.elim s fun n => { s with rowFxPos := fxRight n s.rowFxPos }
      | _, _ => s
  | digits esc left right, k, s =>
      match k with
      | .esc => s.go esc
      | .enter => s.set { fx := some 1 }
      | .left => { s with rowFxPos := left s.rowFxPos }
      | .right => { s with rowFxPos := right s.rowFxPos }
      | _ => s
  | wait done next, _, s => if done then { s with currentScreen := next } else s
  | idle, _, s => s

/-- The screens a handler can go to. -/
def targets : Handler → List Screen
  | menu _ esc enter => esc.target :: enter.map Jump.target
  | page esc enter => esc.target :: enter.toList.map Jump.target
  | editor ed => [ed.esc.target]
  | digits esc _ _ => [esc.target]
  | wait _ next => [next]
  | idle => []

end Handler

end Lcd

end VectorFence
