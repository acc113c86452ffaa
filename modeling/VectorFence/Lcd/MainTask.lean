import VectorFence.Lcd.Basic

/-! The screens of `main_task`, in the order of their cases, and one turn of its loop.

        RunScreen ──ENTER──▶ UserLoginScreen ──ENTER──▶ InputPasswordScreen ──password──▶ root menus
            │
            └──5 s idle, alarm──▶ AlarmTypeListScreen ──ENTER──▶ InqAlarmRecordScreen

    Four screens have code of their own: the run screen, the login, the password and the alarm list.
    All others are handlers. -/

namespace VectorFence

namespace Lcd

open Screen Handler

/-- The menu a user comes back to from the screens both users have. -/
def rootOf : User → Screen
  | .superUser => superUserRootScreen
  | .ordinaryUser => ordinaryUserRootScreen

/-- The rows of a menu with one row for each zone; a single-zone device shows one. -/
def zoneRows (e : Env) : UInt8 := if e.fieldFlagS0D1 then 1 else 2

/-- Back to the login, with a blank password. -/
def logOut : Jump := { target := userLoginScreen, upd := { password := some blankPassword } }

/-- A jump that leaves `row_point` as it is. -/
def keepRow (t : Screen) : Jump := { target := t, upd := {} }

/-- Rows `1 … n` are opened at the first position. -/
def startRows (n : ℕ) (row : UInt8) : Option Update :=
  if 1 ≤ row.toNat ∧ row.toNat ≤ n then some { page := some .modifyState, fx := some 1 } else none

def buFangUp (e : Env) (row : UInt8) : UInt8 :=
  let row := rowUp 3 row
  if e.fieldFlagS0D1 ∧ row = 2 then 1 else row

def buFangDown (e : Env) (row : UInt8) : UInt8 :=
  let row := rowDown 3 row
  if e.fieldFlagS0D1 ∧ row = 2 then 3 else row

/-- Leaving an editor at the first row with nothing marked. -/
def leaveTo (t : Screen) : Jump := { target := t, upd := { row := some 1, fx := some 0 } }

/-- To an editor of digits, the first digit marked. -/
def toDigits (t : Screen) : Jump := { target := t, upd := { row := some 1, fx := some 1 } }

/-- Accepting an edit, with nothing marked afterwards. -/
def toNormal : Update := { page := some .normalState, fx := some 0 }

/-- The moves over the four groups of digits of an address, past the points between them. -/
def addrLeft (fx : ℤ) : ℤ :=
  let fx := (if fx = 5 ∨ fx = 9 ∨ fx = 13 then fx - 1 else fx) - 1
  if fx < 1 then 15 else fx

def addrRight (fx : ℤ) : ℤ :=
  let fx := (if fx = 3 ∨ fx = 7 ∨ fx = 11 then fx + 1 else fx) + 1
  if fx > 15 then 1 else fx

/-- The moves over the digits of a number, `if(row_fx_pos == 0) row_fx_pos = n`. -/
def numLeft (n fx : ℤ) : ℤ := if fx - 1 = 0 then n else fx - 1

/-- The screen that shows a calibrated value, or the one that refuses the calibration. -/
def datumTarget (e : Env) (f : Zone) (t : Screen) : Screen :=
  if e.calibrateEn f = 0 then notAtValidRangeScreen else t

/-- The cases of `main_task`, but for the four screens with code of their own. -/
def handler (e : Env) (u : User) : Screen → Handler
  | passwordErrorScreen =>
      let again : Jump :=
        { target := inputPasswordScreen, upd := { fx := some 0, password := some blankPassword } }
      page again again
  | superUserRootScreen =>
      menu 4 logOut [{ target := setScreen }, { target := inqScreen },
        { target := tensionMonitorScreen }, keepRow verScreen]
  | ordinaryUserRootScreen =>
      menu 3 logOut [{ target := inqScreen }, { target := tensionMonitorScreen }, keepRow verScreen]
  | setScreen =>
      menu 9 { target := superUserRootScreen } [{ target := setSysScreen },
        { target := setFangQuParaScreen }, { target := calibrationSetScreen },
        { target := setBuFangParaScreen }, { target := setAlarmThresholdScreen },
        { target := setClearRecordScreen },
        { target := setExtDeviceTypeScreen, upd := { row := some 1, page := some .normalState } },
        { target := setFullScaleScreen, upd := { fx := some 1 } },
        { target := setBaseAutoCalibrateTimeScreen, upd := { fx := some 1 } }]
  | inqScreen =>
      menu 9 { target := rootOf u } [{ target := inqSysParaScreen }, { target := inqFangQuParaScreen },
        { target := inqBuFangParaScreen }, { target := inqAlarmRecordScreen },
        keepRow inqAlarmThresholdScreen, { target := inqCalibrationValScreen },
        keepRow inqExtDeviceTypeScreen, keepRow inqFullScaleScreen,
        keepRow inqBaseAutoCalibrateTimeScreen]
  | tensionMonitorScreen =>
      menu (zoneRows e) { target := rootOf u }
        [keepRow aFangQuMonitorScreen, keepRow bFangQuMonitorScreen]
  | verScreen => page { target := rootOf u } none
  | setSysScreen =>
      menu 2 { target := setScreen } [{ target := setDateTimeScreen }, { target := setEthParaScreen }]
  | setFangQuParaScreen =>
      menu (zoneRows e) { target := setScreen }
        [{ target := setAFangQuParaScreen }, { target := setBFangQuParaScreen }]
  | calibrationSetScreen =>
      menu 2 { target := setScreen }
        [{ target := zeroCalibrationScreen }, { target := datumCalibrationScreen }]
  | setBuFangParaScreen =>
      editor
        { esc := { target := setScreen }
          up := buFangUp e
          down := buFangDown e
          start := fun row =>
            some { page := some .modifyState, fx := if row = 1 ∨ row = 2 then some 1 else none }
          cancel := { page := some .normalState }
          accept := toNormal
          positions := some 2 }
  | setAlarmThresholdScreen =>
      editor
        { esc := { target := setScreen }
          up := fun row => if row > 1 then row - 1 else 2
          down := fun row => if row < 2 then row + 1 else 1
          start := fun row =>
            some { page := some .modifyState, fx := if row = 1 ∨ row = 2 then some 1 else none }
          cancel := { page := some .normalState }
          accept := toNormal
          positions := some 2 }
  | setClearRecordScreen =>
      menu 3 { target := setScreen } [{ target := clearDuanLuAlarmRecordScreen },
        { target := clearDuanXianAlarmRecordScreen }, { target := setClearRecordScreen }]
  | inqSysParaScreen => menu 1 { target := inqScreen } [{ target := inqEthParaScreen }]
  | inqFangQuParaScreen =>
      menu (zoneRows e) { target := inqScreen }
        [{ target := inqAFangQuParaScreen }, { target := inqBFangQuParaScreen }]
  | inqBuFangParaScreen => page { target := inqScreen } none
  | inqAlarmRecordScreen =>
      menu 3 { target := inqScreen } [{ target := inqDuanLuAlarmScreen },
        { target := inqDuanXianAlarmScreen }, { target := inqFangChaiAlarmRecordScreen }]
  | inqAlarmThresholdScreen => page { target := inqScreen } none
  | inqCalibrationValScreen =>
      menu 2 { target := inqScreen } [{ target := inqZeroValScreen }, { target := inqDatumValScreen }]
  | inqZeroValScreen =>
      menu 2 { target := inqCalibrationValScreen }
        [keepRow inqAareaZeroValScreen, keepRow inqBareaZeroValScreen]
  | inqDatumValScreen =>
      menu 2 { target := inqCalibrationValScreen }
        [keepRow inqAareaDatumValScreen, keepRow inqBareaDatumValScreen]
  | inqAareaZeroValScreen | inqBareaZeroValScreen =>
      page { target := inqZeroValScreen } (some { target := inqZeroValScreen })
  | inqAareaDatumValScreen | inqBareaDatumValScreen =>
      page { target := inqDatumValScreen } (some { target := inqDatumValScreen })
  | inqExtDeviceTypeScreen | inqFullScaleScreen | inqBaseAutoCalibrateTimeScreen =>
      page { target := inqScreen } none
  | aFangQuMonitorScreen | bFangQuMonitorScreen => page { target := tensionMonitorScreen } none
  | setDateTimeScreen =>
      editor
        { esc := leaveTo setSysScreen
          up := rowUp 2
          down := rowDown 2
          start := startRows 2
          cancel := toNormal
          accept := toNormal
          positions := some 3 }
  | setEthParaScreen =>
      menu 4 { target := setSysScreen } [{ target := setMacAddrScreen }, toDigits setIpAddrScreen,
        toDigits setSubnetMaskScreen, toDigits setGateWayScreen]
  | setAFangQuParaScreen | setBFangQuParaScreen =>
      editor
        { esc := leaveTo setFangQuParaScreen
          up := rowUp 3
          down := rowDown 3
          start := startRows 3
          cancel := { page := some .normalState, fx := some 0, row := some 1 }
          accept := toNormal
          positions := some 2 }
  | zeroCalibrationScreen =>
      menu 2 (leaveTo calibrationSetScreen)
        [keepRow azeroCalibrationScreen, keepRow bzeroCalibrationScreen]
  | datumCalibrationScreen =>
      menu 2 (leaveTo calibrationSetScreen) [keepRow (datumTarget e 0 adatumCalibrationScreen),
        keepRow (datumTarget e 1 bdatumCalibrationScreen)]
  | azeroCalibrationScreen => wait (e.calibratingFlag == 0xff) caliOverAareaZeroValScreen
  | bzeroCalibrationScreen => wait (e.calibratingFlag == 0xff) caliOverBareaZeroValScreen
  | adatumCalibrationScreen => wait (e.calibratingFlag == 0xff) caliOverAareaDatumValScreen
  | bdatumCalibrationScreen => wait (e.calibratingFlag == 0xff) caliOverBareaDatumValScreen
  | notAtValidRangeScreen =>
      page { target := datumCalibrationScreen } (some { target := datumCalibrationScreen })
  | caliOverAareaZeroValScreen | caliOverBareaZeroValScreen =>
      page { target := zeroCalibrationScreen } (some { target := zeroCalibrationScreen })
  | caliOverAareaDatumValScreen | caliOverBareaDatumValScreen =>
      page { target := datumCalibrationScreen } (some { target := datumCalibrationScreen })
  | inqEthParaScreen =>
      menu 4 { target := inqSysParaScreen } [{ target := inqMacAddrScreen },
        { target := inqIpAddrScreen }, { target := inqSubnetMaskScreen },
        { target := inqGateWayScreen }]
  | inqDuanLuAlarmScreen =>
      menu (zoneRows e) { target := inqAlarmRecordScreen }
        [{ target := inqAAreaDuanLuAlarmRecordScreen }, { target := inqBAreaDuanLuAlarmRecordScreen }]
  | inqDuanXianAlarmScreen =>
      menu (zoneRows e) { target := inqAlarmRecordScreen }
        [{ target := inqAAreaDuanXianAlarmRecordScreen },
          { target := inqBAreaDuanXianAlarmRecordScreen }]
  | inqFangChaiAlarmRecordScreen => page { target := inqAlarmRecordScreen } none
  | setMacAddrScreen => page { target := setEthParaScreen } none
  | setIpAddrScreen | setSubnetMaskScreen | setGateWayScreen =>
      digits { target := setEthParaScreen } addrLeft addrRight
  | inqMacAddrScreen | inqIpAddrScreen | inqSubnetMaskScreen | inqGateWayScreen =>
      page { target := inqEthParaScreen } (some { target := inqEthParaScreen })
  | inqAFangQuParaScreen | inqBFangQuParaScreen => menu 4 { target := inqFangQuParaScreen } []
  | inqAAreaDuanLuAlarmRecordScreen | inqBAreaDuanLuAlarmRecordScreen =>
      page { target := inqDuanLuAlarmScreen } none
  | inqAAreaDuanXianAlarmRecordScreen | inqBAreaDuanXianAlarmRecordScreen =>
      page { target := inqDuanXianAlarmScreen } none
  | clearDuanLuAlarmRecordScreen =>
      menu 2 { target := setClearRecordScreen }
        [{ target := clearDuanLuAlarmRecordScreen }, { target := clearDuanLuAlarmRecordScreen }]
  | clearDuanXianAlarmRecordScreen =>
      menu 2 { target := setClearRecordScreen }
        [{ target := clearDuanXianAlarmRecordScreen }, { target := clearDuanXianAlarmRecordScreen }]
  | setExtDeviceTypeScreen =>
      editor
        { esc := { target := setScreen }
          up := rowUp (zoneRows e)
          down := rowDown (zoneRows e)
          start := fun row =>
            if row = 1 ∨ row = 2 then some { page := some .modifyState } else none
          cancel := { page := some .normalState, row := some 1 }
          accept := { page := some .normalState }
          positions := none }
  | setFullScaleScreen => digits { target := setScreen } (numLeft 3) (fxRight 3)
  | setBaseAutoCalibrateTimeScreen => digits { target := setScreen } (numLeft 5) (fxRight 5)
  | initScreen | setRS485ParaScreen | inqRS485ParaScreen | setAAreaBuFangParaScreen
  | setBAreaBuFangParaScreen | inqAAreaBuFangParaScreen | inqBAreaBuFangParaScreen | runScreen
  | userLoginScreen | inputPasswordScreen | alarmTypeListScreen => idle

/-! ### The screens with code of their own -/

def pressRun (k : Key) (s : Lcd) : Lcd :=
  match k with
  | .enter => { s with currentScreen := userLoginScreen }
  | _ => s

/-- `UserId ? (UserId = SuperUser) : (UserId = OrdinaryUser)`. -/
def otherUser : User → User
  | .ordinaryUser => .superUser
  | .superUser => .ordinaryUser

def pressUserLogin (k : Key) (s : Lcd) : Lcd :=
  match k with
  | .esc => { s with currentScreen := runScreen, inputPassword := List.replicate 6 32 }
  | .enter =>
      { s with currentScreen := inputPasswordScreen, inputPassword := blankPassword, rowFxPos := 0 }
  | .up | .down => { s with userId := otherUser s.userId }
  | _ => s

/-- Writing the digit under the cursor of the password. -/
def setDigit (c : UInt8) (s : Lcd) : Lcd :=
  { s with inputPassword := s.inputPassword.set s.rowFxPos.toNat c }

def digit (s : Lcd) : UInt8 := s.inputPassword.getD s.rowFxPos.toNat 0

def lcdPassword : User → List UInt8
  | .superUser => lcdSuperPassword
  | .ordinaryUser => lcdOrdinaryPassword

def pressInputPassword (k : Key) (s : Lcd) : Lcd :=
  match k with
  | .esc => { s with currentScreen := runScreen, inputPassword := blankPassword }
  | .enter =>
      if s.inputPassword = lcdPassword s.userId then
        { s with currentScreen := rootOf s.userId, rowPoint := 1 }
      else { s with currentScreen := passwordErrorScreen }
  | .up => s.setDigit (if s.digit + 1 > 57 then 48 else s.digit + 1)
  | .down => s.setDigit (if s.digit - 1 < 48 then 57 else s.digit - 1)
  | .left => setDigit 48 { s with rowFxPos := if s.rowFxPos - 1 < 0 then 5 else s.rowFxPos - 1 }
  | .right => setDigit 48 { s with rowFxPos := if s.rowFxPos + 1 > 5 then 0 else s.rowFxPos + 1 }
  | .none => s

def pressAlarmTypeList (e : Env) (k : Key) (s : Lcd) : Lcd :=
  if e.alarmList = 0 then { s with currentScreen := runScreen }
  else match k with
    | .esc => { s with currentScreen := runScreen }
    | .enter => s.go { target := inqAlarmRecordScreen }
    | _ => s

/-! ### The loop -/

/-- The key on the current screen. -/
def keyPress (e : Env) (k : Key) (s : Lcd) : Lcd :=
  match s.currentScreen with
  | runScreen => pressRun k s
  | userLoginScreen => pressUserLogin k s
  | inputPasswordScreen => pressInputPassword k s
  | alarmTypeListScreen => pressAlarmTypeList e k s
  | screen => (handler e s.userId screen).press k s

/-- Counting the turns without a key, and the alarm list on an idle panel. -/
def idleTurn (e : Env) (k : Key) (s : Lcd) : Lcd :=
  let n := if k = .none then (if s.noKeyNum < 50 then s.noKeyNum + 1 else s.noKeyNum) else 0
  if n = 50 ∧ s.currentScreen = runScreen ∧ e.alarmIdle ≠ 0 then
    { s with noKeyNum := n, currentScreen := alarmTypeListScreen, rowPoint := 1 }
  else { s with noKeyNum := n }

/-- One turn of the loop of `main_task`. -/
def mainTask (e : Env) (k : Key) (s : Lcd) : Lcd := keyPress e k (idleTurn e k s)

end Lcd

end VectorFence
