import VectorFence.Lcd.Address

/-! An editor of digits that is opened and confirmed. What is put in place is read back from the
    text that was made when the editor was opened:

        address      192.168.001.060            three digits a byte         AddrText.toAddr
        full scale   "%03d", tension_max_range / 10    three characters     atoi · 10
        time         "%05d", base_auto_calibrate_time  five characters      atoi

    The full scale is in tenths of a kilogram and its editor shows kilograms, as the page of the
    browser does. -/

namespace VectorFence

open CStr Lcd

/-- The editors of digits. -/
inductive DigitField where
  | addr (f : AddrField)
  | fullScale
  | calibrateTime
  deriving DecidableEq, Repr

namespace DigitField

def screen : DigitField → Screen
  | addr f => f.screen
  | fullScale => .setFullScaleScreen
  | calibrateTime => .setBaseAutoCalibrateTimeScreen

/-- The menu an editor is opened in, and its row there. -/
def menu : DigitField → Screen
  | addr _ => .setEthParaScreen
  | fullScale | calibrateTime => .setScreen

def row : DigitField → UInt8
  | addr f => f.row
  | fullScale => 8
  | calibrateTime => 9

/-- The text of an editor of `DisplaySetMenu` is made by its row. -/
def prepare (p : Panel) : DigitField → Panel
  | addr _ => p
  | fullScale => p.enterSetMenu 8
  | calibrateTime => p.enterSetMenu 9

/-- The parameter in the variables. -/
def value (h : Host) : DigitField → List ℕ
  | addr f => List.ofFn fun i => (h.addr f i).toNat
  | fullScale => [h.panel.station.value .tensionMaxRange]
  | calibrateTime => [h.panel.station.value .baseAutoCalibrateTime]

/-- The parameter in the EEPROM. -/
def stored (h : Host) : DigitField → List ℕ
  | addr f => List.ofFn fun i => (f.get h.storedNet i).toNat
  | fullScale => [h.mem.stored .tensionMaxRange]
  | calibrateTime => [h.mem.stored .baseAutoCalibrateTime]

/-- The text is within its array: `eth_ip_addr[16]`, `tension_max_range_temp[4]`,
    `base_auto_calibrate_time_tmp[6]`. An address always takes sixteen characters. -/
def Fits (h : Host) : DigitField → Prop
  | addr _ => True
  | fullScale => h.panel.temps.tensionMaxRange.length + 1 ≤ 4
  | calibrateTime => h.panel.temps.baseAutoCalibrateTime.length + 1 ≤ 6

/-- The text of the parameter of `h₀` in the editor. -/
def Shows (h₀ h : Host) : DigitField → Prop
  | addr f => h.text f = AddrText.ofAddr (h₀.addr f)
  | fullScale =>
      h.panel.temps.tensionMaxRange = dec 3 (h₀.panel.station.value .tensionMaxRange / 10)
  | calibrateTime =>
      h.panel.temps.baseAutoCalibrateTime = dec 5 (h₀.panel.station.value .baseAutoCalibrateTime)

/-- The parameter as its editor shows it; the full scale is shown in whole kilograms. -/
def shown (h : Host) : DigitField → List ℕ
  | fullScale => [h.panel.station.value .tensionMaxRange / 10 * 10]
  | x => x.value h

/-- The text has room in its array. -/
def Room (h : Host) : DigitField → Prop
  | fullScale => h.panel.station.value .tensionMaxRange < 10000
  | _ => True

end DigitField

namespace Host

variable {x : DigitField} {h h₀ : Host}

/-- The editor is open, and nothing of the device has changed. -/
structure Untouched (x : DigitField) (h₀ h : Host) : Prop where
  running : h.panel.running
  screen : h.panel.lcd.currentScreen = x.screen
  station : h.panel.station = h₀.panel.station
  lwipdev : h.lwipdev = h₀.lwipdev
  shows : x.Shows h₀ h

/-- The keys that do not change a digit. -/
def Cursor (k : Key) : Prop := k = .left ∨ k = .right ∨ k = .none

theorem screen_ne_runScreen (x : DigitField) : x.screen ≠ .runScreen := by
  cases x with
  | addr f => cases f <;> decide
  | _ => decide

/-- Such a key moves the cursor. -/
theorem turn_cursor (hrun : h.panel.running) (hs : h.panel.lcd.currentScreen = x.screen) (e : Env)
    (pins : Fin 2 → Bool) {k : Key} (hk : Cursor k) : ∃ n,
      h.turn e pins k = h.onPanel fun p =>
      { p with lcd := keyPress e k { h.panel.lcd with noKeyNum := n } } := by
  obtain ⟨n, hidle⟩ := idleTurn_counts e k (hs ▸ screen_ne_runScreen x)
  refine ⟨n, ?_⟩
  rw [turn_eq hrun, hidle]
  rcases hk with rfl | rfl | rfl <;> cases x with
  | addr f =>
    cases f <;> simp only [addrEffect, addrEditor, Panel.zoneEffect, Panel.otherEffect, hs,
      DigitField.screen,
      AddrField.screen]
  | _ =>
    simp only [addrEffect, Panel.zoneEffect, Panel.otherEffect, Panel.fullScaleEditor,
      Panel.calibrateTimeEditor, hs, DigitField.screen]

/-- The moves of the cursor stay on the screen. -/
theorem keyPress_cursor (e : Env) {k : Key} (hk : Cursor k) {s : Lcd}
    (hs : s.currentScreen = x.screen) :
    (keyPress e k s).currentScreen = x.screen := by
  rcases hk with rfl | rfl | rfl <;> cases x with
  | addr f =>
    cases f <;> simp only [keyPress, hs, DigitField.screen, AddrField.screen, handler, Handler.press]
  | _ => simp only [keyPress, hs, DigitField.screen, handler, Handler.press]

theorem Untouched.cursor (hu : Untouched x h₀ h) (e : Env) (pins : Fin 2 → Bool) {k : Key}
    (hk : Cursor k) :
    Untouched x h₀ (h.turn e pins k) := by
  obtain ⟨n, hturn⟩ := turn_cursor hu.running hu.screen e pins hk
  rw [hturn]
  refine ⟨hu.running, keyPress_cursor e hk hu.screen, hu.station, hu.lwipdev, ?_⟩
  have hshows := hu.shows
  cases x with
  | addr f => exact (text_onPanel _).trans hshows
  | _ => exact hshows

/-- A turn with such a key. -/
abbrev CursorTurn := Env × (Fin 2 → Bool) × { k : Key // Cursor k }

def cursorTurn (h : Host) (q : CursorTurn) : Host := h.turn q.1 q.2.1 q.2.2

theorem Untouched.foldl (hu : Untouched x h₀ h) (qs : List CursorTurn) :
    Untouched x h₀ (qs.foldl cursorTurn h) :=
  Run.foldl_inv (Untouched x h₀) (fun _ q hu => hu.cursor q.1 q.2.1 q.2.2.2) qs h hu

theorem keyPress_opens (e : Env) {s : Lcd} (hs : s.currentScreen = x.menu) (hrow : s.rowPoint = x.row) :
    (keyPress e .enter s).currentScreen = x.screen := by
  cases x with
  | addr f =>
    cases f <;> simp only [keyPress, hs, DigitField.menu, handler, Handler.press, hrow, DigitField.row,
      AddrField.row] <;> rfl
  | _ =>
    simp only [keyPress, hs, DigitField.menu, handler, Handler.press, hrow, DigitField.row]
    rfl

/-- What ENTER does in the menu of an editor, but for the texts of the addresses. -/
theorem effect_opens {s : Lcd} (hs : s.currentScreen = x.menu) (hrow : s.rowPoint = x.row) (e : Env)
    (pins : Fin 2 → Bool) (p : Panel) :
    (p.zoneEffect .enter s).otherEffect e pins .enter s = x.prepare p := by
  cases x with
  | addr f => simp only [Panel.zoneEffect, Panel.otherEffect, hs, DigitField.menu, DigitField.prepare]
  | _ =>
    simp only [Panel.zoneEffect, Panel.otherEffect, hs, DigitField.menu, hrow, DigitField.row]
    rfl

/-- ENTER in the menu. -/
theorem untouched_opened (hrun : h.panel.running) (hs : h.panel.lcd.currentScreen = x.menu)
    (hrow : h.panel.lcd.rowPoint = x.row) (e : Env) (pins : Fin 2 → Bool) :
    Untouched x h (h.turn e pins .enter) := by
  have hscreen := keyPress_opens e (s := { h.panel.lcd with noKeyNum := 0 }) hs hrow
  rw [turn_eq hrun, Panel.idleTurn_enter]
  simp only [effect_opens (s := { h.panel.lcd with noKeyNum := 0 }) hs hrow]
  cases x with
  | addr f =>
    rw [addrEffect_opens (s := { h.panel.lcd with noKeyNum := 0 }) hs hrow]
    cases f <;> exact ⟨hrun, hscreen, rfl, rfl, rfl⟩
  | _ =>
    have hsame : h.addrEffect .enter { h.panel.lcd with noKeyNum := 0 } = h := by
      simp only [addrEffect, hs, DigitField.menu]
    rw [hsame]
    exact ⟨hrun, hscreen, rfl, rfl, rfl⟩

/-! ### ENTER -/

theorem get_setAddr (f : AddrField) (a : Fin 4 → UInt8) : f.get (h.setAddr a f).lwipdev = a := by
  cases f <;> rfl

/-- An address is put in place and stored. -/
theorem turn_enter_addr {f : AddrField} (hrun : h.panel.running)
    (hs : h.panel.lcd.currentScreen = f.screen)
    (e : Env) (pins : Fin 2 → Bool) :
    (h.turn e pins .enter).addr f = (h.text f).toAddr ∧
      f.get (h.turn e pins .enter).storedNet = (h.text f).toAddr := by
  have hturn : h.turn e pins .enter = ((h.setAddr (h.text f).toAddr f).lwipResetNetifIpaddr).onPanel
    fun p =>
      { p.reset with lcd := keyPress e .enter { h.panel.lcd with noKeyNum := 0 } } := by
    rw [turn_eq hrun, Panel.idleTurn_enter,
      addrEffect_editor (s := { h.panel.lcd with noKeyNum := 0 }) .enter hs]
    cases f <;> simp only [Panel.zoneEffect, Panel.otherEffect, hs, AddrField.screen] <;> rfl
  rw [hturn]
  constructor
  · exact get_setAddr f _
  · have hstored := storedNet_reset (h.setAddr (h.text f).toAddr f)
    exact (congrArg f.get hstored).trans (get_setAddr f _)

theorem turn_enter_fullScale (hrun : h.panel.running)
    (hs : h.panel.lcd.currentScreen = .setFullScaleScreen)
    (e : Env) (pins : Fin 2 → Bool) : (h.turn e pins .enter).panel.station =
      h.panel.station.onDev
        (Dev.setTensionMaxRange (UInt16.ofInt (atoi h.panel.temps.tensionMaxRange * 10))) := by
  rw [turn_eq hrun, Panel.idleTurn_enter]
  simp only [addrEffect, Panel.zoneEffect, Panel.otherEffect, hs, Panel.fullScaleEditor]
  rfl

theorem turn_enter_calibrateTime (hrun : h.panel.running)
    (hs : h.panel.lcd.currentScreen = .setBaseAutoCalibrateTimeScreen) (e : Env) (pins : Fin 2 → Bool) :
    (h.turn e pins .enter).panel.station =
      h.panel.station.onDev (Dev.setBaseAutoCalibrateTime (u16 h.panel.temps.baseAutoCalibrateTime))
      := by
  rw [turn_eq hrun, Panel.idleTurn_enter]
  simp only [addrEffect, Panel.zoneEffect, Panel.otherEffect, hs, Panel.calibrateTimeEditor]
  rfl

/-- What was read back from the text of the full scale. -/
theorem readBack_fullScale (v : UInt16) :
    (UInt16.ofInt (atoi (dec 3 (v.toNat / 10)) * 10)).toNat = v.toNat / 10 * 10 := by
  have hv := v.toNat_lt
  rw [atoi_dec (by omega), UInt16.ofInt]
  have hcast : ((v.toNat / 10 : ℕ) : ℤ) * 10 % 2 ^ 16 = ((v.toNat / 10 * 10 : ℕ) : ℤ) := by
    push_cast
    omega
  rw [hcast, Int.toNat_natCast, UInt16.toNat_ofNat']
  omega

/-- The variable and the EEPROM agree afterwards. -/
theorem Untouched.stored_enter (hu : Untouched x h₀ h) (e : Env) (pins : Fin 2 → Bool) :
    x.stored (h.turn e pins .enter) = x.value (h.turn e pins .enter) := by
  obtain ⟨hrun, hs, -, -, -⟩ := hu
  cases x with
  | addr f =>
    obtain ⟨haddr, hstored⟩ := turn_enter_addr hrun hs e pins
    rw [DigitField.stored, DigitField.value, haddr, hstored]
  | fullScale =>
    rw [DigitField.stored, DigitField.value, Host.mem, turn_enter_fullScale hrun hs]
    exact congrArg (fun n => [n]) (@inStep_range _ (h.panel.station.onDev _) rfl .tensionMaxRange rfl)
  | calibrateTime =>
    rw [DigitField.stored, DigitField.value, Host.mem, turn_enter_calibrateTime hrun hs]
    exact congrArg (fun n => [n])
      (@inStep_time _ (h.panel.station.onDev _) rfl .baseAutoCalibrateTime rfl)

/-- What was shown is put in place. -/
theorem Untouched.value_enter (hu : Untouched x h₀ h) (hroom : x.Room h₀) (e : Env)
    (pins : Fin 2 → Bool) :
    x.Fits h ∧ x.value (h.turn e pins .enter) = x.shown h₀ := by
  obtain ⟨hrun, hs, -, -, hshows⟩ := hu
  cases x with
  | addr f =>
    have hsame : (h.turn e pins .enter).addr f = h₀.addr f := by
      rw [(turn_enter_addr hrun hs e pins).1, hshows, AddrText.toAddr_ofAddr]
    refine ⟨trivial, ?_⟩
    simp only [DigitField.shown, DigitField.value, hsame]
  | fullScale =>
    have hn : h₀.panel.station.value .tensionMaxRange < 10000 := hroom
    rw [DigitField.Fits, DigitField.value, turn_enter_fullScale hrun hs, hshows,
      Nat.add_le_add_iff_right (n := 1), length_dec_le (by norm_num) le_rfl]
    refine ⟨by omega, ?_⟩
    exact congrArg (fun n => [n]) (readBack_fullScale h₀.panel.station.dev.adc.tensionMaxRange)
  | calibrateTime =>
    have hv := h₀.panel.station.dev.adc.baseAutoCalibrateTime.toNat_lt
    have hn : h₀.panel.station.value .baseAutoCalibrateTime < 2 ^ 16 := hv
    rw [DigitField.Fits, DigitField.value, turn_enter_calibrateTime hrun hs, hshows,
      Nat.add_le_add_iff_right (n := 1), length_dec_le (by norm_num) le_rfl]
    refine ⟨by omega, ?_⟩
    exact congrArg (fun v : UInt16 => [v.toNat]) (u16_dec _)

end Host

/-- A device before ENTER opens an editor of digits. -/
structure DigitMenu where
  host : Host
  field : DigitField
  enter : Env × (Fin 2 → Bool)
  running : host.panel.running
  screen : host.panel.lcd.currentScreen = field.menu
  row : host.panel.lcd.rowPoint = field.row

namespace DigitMenu

open Host

def opened (x : DigitMenu) : Host := x.host.turn x.enter.1 x.enter.2 .enter

/-- ENTER again, after keys that do not change a digit. -/
def confirmed (x : DigitMenu) (qs : List CursorTurn) (e : Env) (pins : Fin 2 → Bool) : Host :=
  (qs.foldl cursorTurn x.opened).turn e pins .enter

/-- The parameter is as it was in both places. -/
def Unchanged (x : DigitMenu) (qs : List CursorTurn) (e : Env) (pins : Fin 2 → Bool) : Prop :=
  x.field.value (x.confirmed qs e pins) = x.field.value x.host ∧
    x.field.stored (x.confirmed qs e pins) = x.field.stored x.host

variable (x : DigitMenu) (qs : List CursorTurn) (e : Env) (pins : Fin 2 → Bool)

theorem untouched : Untouched x.field x.host (qs.foldl cursorTurn x.opened) :=
  (untouched_opened x.running x.screen x.row x.enter.1 x.enter.2).foldl qs

/-- What is confirmed is what was shown. -/
theorem confirmed_eq (hroom : x.field.Room x.host) :
    x.field.value (x.confirmed qs e pins) = x.field.shown x.host ∧
      x.field.stored (x.confirmed qs e pins) = x.field.shown x.host := by
  have hu := x.untouched qs
  have hvalue := (hu.value_enter hroom e pins).2
  exact ⟨hvalue, (hu.stored_enter e pins).trans hvalue⟩

/-- An editor that is opened and confirmed puts in both places what it shows: any address, any time,
    and the whole kilograms of the full scale. The parameter is unchanged exactly when it was in
    both places and all of it is shown. -/
theorem unchanged_iff (hroom : x.field.Room x.host) :
    x.field.Fits x.opened ∧
      x.field.value (x.confirmed qs e pins) = x.field.shown x.host ∧
      x.field.stored (x.confirmed qs e pins) = x.field.shown x.host ∧
      (x.Unchanged qs e pins ↔
        x.field.stored x.host = x.field.value x.host ∧
        x.field.shown x.host = x.field.value x.host) := by
  obtain ⟨hvalue, hstored⟩ := x.confirmed_eq qs e pins hroom
  refine ⟨((x.untouched []).value_enter hroom e pins).1, hvalue, hstored, ?_⟩
  rw [Unchanged, hvalue, hstored]
  constructor
  · rintro ⟨hval, hst⟩
    exact ⟨hst.symm.trans hval, hval⟩
  · rintro ⟨hin, hshown⟩
    exact ⟨hshown, hshown.trans hin.symm⟩

/-! ### A full scale of 100.5 kg -/

/-- It is set in the browser, then the super user goes to its editor. -/
def atFullScale : Host :=
  (Request.web [(lit "TENSION_MAX_RANGE", lit "1005")] ::
    Panel.keys (Panel.toSettings ++ List.replicate 7 .down)).foldl (fun h r =>
    h.onPanel fun p => p.step r)
    firstStart

theorem atFullScale_eq : atFullScale.panel.running = true ∧
    atFullScale.panel.lcd.currentScreen = .setScreen ∧ atFullScale.panel.lcd.rowPoint = 8 ∧
    atFullScale.panel.station.value .tensionMaxRange = 1005 := by
  decide +kernel

def fullScaleMenu : DigitMenu where
  host := atFullScale
  field := .fullScale
  enter := (Panel.quiet, fun _ => false)
  running := atFullScale_eq.1
  screen := atFullScale_eq.2.1
  row := atFullScale_eq.2.2.1

theorem fullScaleMenu_room : fullScaleMenu.field.Room fullScaleMenu.host :=
  atFullScale_eq.2.2.2.trans_lt (by norm_num)

theorem unchanged_iff_fullScale :
    fullScaleMenu.field.Fits fullScaleMenu.opened ∧
      fullScaleMenu.field.value (fullScaleMenu.confirmed [] Panel.quiet fun _ => false) =
        fullScaleMenu.field.shown fullScaleMenu.host ∧
      fullScaleMenu.field.stored (fullScaleMenu.confirmed [] Panel.quiet fun _ => false) =
        fullScaleMenu.field.shown fullScaleMenu.host ∧
      (fullScaleMenu.Unchanged [] Panel.quiet (fun _ => false) ↔
        fullScaleMenu.field.stored fullScaleMenu.host = fullScaleMenu.field.value fullScaleMenu.host ∧
          fullScaleMenu.field.shown fullScaleMenu.host = fullScaleMenu.field.value
          fullScaleMenu.host) :=
  unchanged_iff fullScaleMenu [] Panel.quiet (fun _ => false) fullScaleMenu_room

/-- It is confirmed as 100 kg. -/
theorem not_unchanged : ¬ ∀ (x : DigitMenu) (qs : List CursorTurn) (e : Env) (pins : Fin 2 → Bool),
    x.Unchanged qs e pins := by
  intro h
  obtain ⟨hval, -⟩ := h fullScaleMenu [] Panel.quiet fun _ => false
  rw [(fullScaleMenu.confirmed_eq [] Panel.quiet (fun _ => false) fullScaleMenu_room).1] at hval
  have h1005 := atFullScale_eq.2.2.2
  have hshown : [atFullScale.panel.station.value .tensionMaxRange / 10 * 10] =
      [atFullScale.panel.station.value .tensionMaxRange] := hval
  rw [h1005] at hshown
  exact absurd hshown (by decide)

end DigitMenu

end VectorFence
