import VectorFence.Lcd.MainTask
import VectorFence.Lib.Run

/-! Who may set parameters. The screens a key can reach fall into areas, and only the password leads
    from the outside in:

        outside ──super password──▶ privileged ◀──▶ inquiry (super user)
           │    ──ordinary password────────────────▶ inquiry (ordinary user)
           └────alarm list─────────────────────────▶ inquiry (whoever `UserId` says)

    The last way asks for no password, and the way back from the inquiry screens goes by `UserId`, which
    the login screen changes before any password is given. -/

namespace VectorFence

namespace Lcd

open Screen Handler

/-- The root menu of the super user and the screens below its first row. -/
def privileged : Screen → Bool
  | superUserRootScreen | setScreen | setSysScreen | setFangQuParaScreen | setAFangQuParaScreen
  | setBFangQuParaScreen | setBuFangParaScreen | setClearRecordScreen | setDateTimeScreen
  | setEthParaScreen | setRS485ParaScreen | setAAreaBuFangParaScreen | setBAreaBuFangParaScreen
  | setMacAddrScreen | setIpAddrScreen | setSubnetMaskScreen | setGateWayScreen
  | clearDuanLuAlarmRecordScreen | clearDuanXianAlarmRecordScreen | setExtDeviceTypeScreen
  | setAlarmThresholdScreen | calibrationSetScreen | zeroCalibrationScreen | datumCalibrationScreen
  | azeroCalibrationScreen | bzeroCalibrationScreen | adatumCalibrationScreen
  | bdatumCalibrationScreen | notAtValidRangeScreen | caliOverAareaZeroValScreen
  | caliOverBareaZeroValScreen | caliOverAareaDatumValScreen | caliOverBareaDatumValScreen
  | setFullScaleScreen | setBaseAutoCalibrateTimeScreen => true
  | _ => false

/-- The screens on the way in. -/
def outside : Screen → Bool
  | initScreen | runScreen | userLoginScreen | inputPasswordScreen | passwordErrorScreen
  | alarmTypeListScreen => true
  | _ => false

/-- The screens both users have: the inquiries, the monitor and the version. -/
def inquiry (x : Screen) : Bool := !privileged x && !outside x && x != ordinaryUserRootScreen

/-! ### Where a key can lead -/

theorem press_user (h : Handler) (k : Key) (s : Lcd) : (h.press k s).userId = s.userId := by
  cases h with
  | menu rows esc enter => cases k <;> simp only [press, go_user]; cases choice enter s.rowPoint <;> rfl
  | page esc enter => cases k <;> simp only [press, go_user]; cases enter <;> rfl
  | editor ed =>
    simp only [press]
    split
    any_goals rfl
    · cases ed.start s.rowPoint <;> rfl
    · cases ed.positions <;> rfl
    · cases ed.positions <;> rfl
  | digits esc left right => cases k <;> rfl
  | wait done next => rw [press]; split_ifs <;> rfl
  | idle => rfl

/-- A handler stays on its screen or goes to one of its targets. -/
theorem press_screen (h : Handler) (k : Key) (s : Lcd) :
    (h.press k s).currentScreen = s.currentScreen ∨ (h.press k s).currentScreen ∈ h.targets := by
  cases h with
  | menu rows esc enter =>
    cases k with
    | enter =>
      cases hc : choice enter s.rowPoint with
      | none => left; simp [press, hc]
      | some j =>
        right
        have hj : j ∈ enter := choice_mem hc
        simp only [press, hc, Option.elim_some, go_screen, targets]
        exact List.mem_cons_of_mem _ (List.mem_map_of_mem hj)
    | esc => right; simp [press, targets]
    | _ => left; rfl
  | page esc enter =>
    cases k with
    | enter => cases enter <;> simp [press, targets]
    | esc => right; simp [press, targets]
    | _ => left; rfl
  | editor ed =>
    simp only [press]
    split <;> simp only [go_screen, set_screen, targets, List.mem_singleton, true_or, or_true]
    · cases ed.start s.rowPoint <;> exact Or.inl rfl
    · cases ed.positions <;> exact Or.inl rfl
    · cases ed.positions <;> exact Or.inl rfl
  | digits esc left right => cases k <;> simp [press, targets]
  | wait done next => rw [press]; split_ifs <;> simp [targets]
  | idle => exact Or.inl rfl

theorem datumTarget_privileged (e : Env) (f : Zone) (t : Screen) (h : privileged t = true) :
    privileged (datumTarget e f t) = true := by
  rw [datumTarget]
  split_ifs
  · rfl
  · exact h

/-- From the privileged screens a key leads to screens of the super user or out to the login. -/
theorem privileged_targets (e : Env) (u : User) (x : Screen) (h : privileged x = true) :
    ∀ t ∈ (handler e u x).targets,
      (privileged t || inquiry t || t == userLoginScreen) = true := by
  rw [← List.all_eq_true]
  cases x with
  | datumCalibrationScreen =>
    simp only [handler, targets, List.map_cons, List.map_nil, List.all_cons, List.all_nil, keepRow,
      leaveTo, datumTarget_privileged e 0 adatumCalibrationScreen rfl,
      datumTarget_privileged e 1 bdatumCalibrationScreen rfl]
    rfl
  | _ => first | rfl | exact absurd h (by decide)

/-- From the inquiry screens it leads to inquiry screens or to the root menu of the current user. -/
theorem inquiry_targets (e : Env) (u : User) (x : Screen) (h : inquiry x = true) :
    ∀ t ∈ (handler e u x).targets, (inquiry t || t == rootOf u) = true := by
  rw [← List.all_eq_true]
  cases u <;> cases x <;> first | rfl | exact absurd h (by decide)

/-! ### Sessions -/

/-- The key that opens a session of the super user. -/
def PasswordGiven (k : Key) (s : Lcd) : Prop :=
  s.currentScreen = inputPasswordScreen ∧ k = .enter ∧ s.userId = .superUser ∧
    s.inputPassword = lcdSuperPassword

instance (k : Key) (s : Lcd) : Decidable (PasswordGiven k s) := by unfold PasswordGiven; infer_instance

/-- The panel and whether the super password was given since the last visit to the run screen. -/
structure Session where
  lcd : Lcd
  authenticated : Bool

/-- One turn of the loop with what it reads. -/
abbrev Turn := Env × Key

def Session.turn (x : Session) (t : Turn) : Session where
  lcd := mainTask t.1 t.2 x.lcd
  authenticated :=
    if (mainTask t.1 t.2 x.lcd).currentScreen = runScreen then false
    else x.authenticated || decide (PasswordGiven t.2 x.lcd)

def Session.powerOn : Session := ⟨Lcd.powerOn, false⟩

/-- Screens of the super user are open only in an authenticated session. -/
def Guarded (x : Session) : Prop :=
  privileged x.lcd.currentScreen = true ∨ inquiry x.lcd.currentScreen = true ∧
    x.lcd.userId = .superUser →
    x.authenticated = true

/-- What holds in every session: the ordinary menu belongs to the ordinary user, and the run screen and
    the alarm list to nobody. -/
structure Regular (x : Session) : Prop where
  ordinary : x.lcd.currentScreen = ordinaryUserRootScreen → x.lcd.userId = .ordinaryUser
  fresh : x.lcd.currentScreen = runScreen ∨ x.lcd.currentScreen = alarmTypeListScreen →
    x.authenticated = false

/-- The turn does not leave the alarm list for the records while `UserId` is the super user. -/
def NotThroughAlarms (s : Lcd) (t : Turn) : Prop :=
  s.currentScreen = alarmTypeListScreen → t.1.alarmList ≠ 0 → t.2 = .enter → s.userId = .ordinaryUser

/-! ### One key -/

theorem keyPress_handler (e : Env) (k : Key) {s : Lcd} (h : outside s.currentScreen = false) :
    keyPress e k s = (handler e s.userId s.currentScreen).press k s := by
  rw [keyPress]
  split <;> first | rfl | (rename_i hx; rw [hx] at h; exact absurd h (by decide))

/-- What a key can do: every change of screen that matters for access, with what it asks for. -/
inductive Move (e : Env) (k : Key) (s s' : Lcd) : Prop where
  | inside (source : privileged s.currentScreen = true) (user : s'.userId = s.userId)
      (arrival : (privileged s'.currentScreen || inquiry s'.currentScreen ||
        s'.currentScreen == userLoginScreen) = true)
  | inquire (source : inquiry s.currentScreen = true) (user : s'.userId = s.userId)
      (arrival : (inquiry s'.currentScreen || s'.currentScreen == rootOf s.userId) = true)
  | ordinary (source : s.currentScreen = ordinaryUserRootScreen) (user : s'.userId = s.userId)
      (arrival : (s'.currentScreen == ordinaryUserRootScreen || inquiry s'.currentScreen ||
        s'.currentScreen == userLoginScreen) = true)
  | password (given : PasswordGiven k s) (arrival : s'.currentScreen = superUserRootScreen)
  | ordinaryLogin (source : s.currentScreen = inputPasswordScreen) (user : s'.userId = .ordinaryUser)
      (arrival : s'.currentScreen = ordinaryUserRootScreen)
  | alarms (source : s.currentScreen = alarmTypeListScreen) (alarm : e.alarmList ≠ 0) (key : k = .enter)
      (user : s'.userId = s.userId) (arrival : s'.currentScreen = inqAlarmRecordScreen)
  | login (quiet : s.currentScreen = alarmTypeListScreen → e.alarmList ≠ 0 → k ≠ .enter)
      (arrival : (outside s'.currentScreen && s'.currentScreen != alarmTypeListScreen) = true)
  | stay (quiet : s.currentScreen = alarmTypeListScreen → e.alarmList ≠ 0 → k ≠ .enter)
      (source : outside s.currentScreen = true) (arrival : s'.currentScreen = s.currentScreen)

/-- A handler keeps what its screen and all its targets have in common. -/
theorem keyPress_keeps {A : Screen → Bool} (e : Env) (k : Key) {s : Lcd}
    (hout : outside s.currentScreen = false) (hs : A s.currentScreen = true)
    (ht : ∀ t ∈ (handler e s.userId s.currentScreen).targets, A t = true) :
    A (keyPress e k s).currentScreen = true ∧ (keyPress e k s).userId = s.userId := by
  rw [keyPress_handler e k hout, press_user]
  refine ⟨?_, rfl⟩
  rcases press_screen (handler e s.userId s.currentScreen) k s with h | h
  · rw [h, hs]
  · exact ht _ h

theorem Move.login_of {e : Env} {k : Key} {s s' : Lcd} (h : s.currentScreen ≠ alarmTypeListScreen)
    (ht : (outside s'.currentScreen && s'.currentScreen != alarmTypeListScreen) = true) :
    Move e k s s' :=
  .login (fun ha => absurd ha h) ht

theorem Move.stay_of {e : Env} {k : Key} {s s' : Lcd} (h : s.currentScreen ≠ alarmTypeListScreen)
    (hs : outside s.currentScreen = true) (ht : s'.currentScreen = s.currentScreen) : Move e k s s' :=
  .stay (fun ha => absurd ha h) hs ht

theorem pressInputPassword_move (e : Env) (k : Key) {s : Lcd}
    (h : s.currentScreen = inputPasswordScreen) :
    Move e k s (pressInputPassword k s) := by
  have hout : outside s.currentScreen = true := by rw [h]; rfl
  have hne : s.currentScreen ≠ alarmTypeListScreen := by rw [h]; decide
  cases k with
  | enter =>
    rw [pressInputPassword]
    split_ifs with hp
    · cases hu : s.userId with
      | superUser => exact .password ⟨h, rfl, hu, by rw [hp, hu]; rfl⟩ rfl
      | ordinaryUser => exact .ordinaryLogin h rfl rfl
    · exact .login_of hne rfl
  | esc => exact .login_of hne rfl
  | _ => exact .stay_of hne hout rfl

theorem pressAlarmTypeList_move (e : Env) (k : Key) {s : Lcd}
    (h : s.currentScreen = alarmTypeListScreen) :
    Move e k s (pressAlarmTypeList e k s) := by
  have hout : outside s.currentScreen = true := by rw [h]; rfl
  simp only [pressAlarmTypeList]
  split_ifs with ha
  · exact .login (fun _ hne => absurd ha hne) rfl
  · cases k with
    | enter => exact .alarms h ha rfl rfl rfl
    | esc => exact .login (fun _ _ => by decide) rfl
    | _ => exact .stay (fun _ _ => by decide) hout rfl

theorem keyPress_move (e : Env) (k : Key) (s : Lcd) : Move e k s (keyPress e k s) := by
  cases hp : privileged s.currentScreen with
  | true =>
    obtain ⟨hto, hu⟩ := keyPress_keeps (A := fun t => privileged t || inquiry t || t == userLoginScreen)
      e k (by revert hp; cases s.currentScreen <;> decide) (by rw [hp]; rfl)
      (privileged_targets e s.userId _ hp)
    exact .inside hp hu hto
  | false =>
    cases hi : inquiry s.currentScreen with
    | true =>
      obtain ⟨hto, hu⟩ := keyPress_keeps (A := fun t => inquiry t || t == rootOf s.userId)
        e k (by revert hi; cases s.currentScreen <;> decide) (by rw [hi]; rfl)
        (inquiry_targets e s.userId _ hi)
      exact .inquire hi hu hto
    | false =>
      cases hs : s.currentScreen with
      | ordinaryUserRootScreen =>
        obtain ⟨hto, hu⟩ := keyPress_keeps
          (A := fun t => t == ordinaryUserRootScreen || inquiry t || t == userLoginScreen)
          e k (by rw [hs]; rfl) (by rw [hs]; rfl) (by rw [hs, ← List.all_eq_true]; rfl)
        exact .ordinary hs hu hto
      | inputPasswordScreen => simp only [keyPress, hs]; exact pressInputPassword_move e k hs
      | alarmTypeListScreen => simp only [keyPress, hs]; exact pressAlarmTypeList_move e k hs
      | initScreen | runScreen | userLoginScreen | passwordErrorScreen =>
        have hne : s.currentScreen ≠ alarmTypeListScreen := by rw [hs]; decide
        have hout : outside s.currentScreen = true := by rw [hs]; rfl
        simp only [keyPress, hs]
        cases k <;> first | exact .stay_of hne hout rfl | exact .login_of hne rfl
      | _ => rw [hs] at hp hi; first | exact absurd hp (by decide) | exact absurd hi (by decide)

/-! ### One turn -/

theorem inside_ne {t : Screen} (h : (privileged t || inquiry t || t == userLoginScreen) = true) :
    t ≠ runScreen ∧ t ≠ alarmTypeListScreen ∧ t ≠ ordinaryUserRootScreen := by
  revert h
  cases t <;> decide

theorem outside_closed {t : Screen} (h : outside t = true) :
    privileged t = false ∧ inquiry t = false ∧ t ≠ ordinaryUserRootScreen := by
  revert h
  cases t <;> decide

/-- The second half of a turn, the key. -/
def Session.key (x : Session) (t : Turn) : Session where
  lcd := keyPress t.1 t.2 x.lcd
  authenticated :=
    if (keyPress t.1 t.2 x.lcd).currentScreen = runScreen then false
    else x.authenticated || decide (PasswordGiven t.2 x.lcd)

theorem Session.key_run {x : Session} {t : Turn} (h : (x.key t).lcd.currentScreen = runScreen) :
    (x.key t).authenticated = false := if_pos h

theorem Session.key_ne_run {x : Session} {t : Turn} (h : (x.key t).lcd.currentScreen ≠ runScreen) :
    (x.key t).authenticated = (x.authenticated || decide (PasswordGiven t.2 x.lcd)) := if_neg h

theorem not_passwordGiven {k : Key} {s : Lcd} (h : s.currentScreen ≠ inputPasswordScreen) :
    decide (PasswordGiven k s) = false := decide_eq_false fun hp => h hp.1

theorem Regular.of_ne {x : Session} (ho : x.lcd.currentScreen ≠ ordinaryUserRootScreen)
    (hr : x.lcd.currentScreen ≠ runScreen) (ha : x.lcd.currentScreen ≠ alarmTypeListScreen) :
    Regular x :=
  ⟨fun h => absurd h ho, fun h => (h.elim hr ha).elim⟩

theorem Guarded.of_auth {x : Session} (h : x.authenticated = true) : Guarded x := fun _ => h

theorem Guarded.of_closed {x : Session} (hp : privileged x.lcd.currentScreen = false)
    (hi : inquiry x.lcd.currentScreen = true → x.lcd.userId = .ordinaryUser) : Guarded x := by
  rintro (h | ⟨h, hu⟩)
  · exact absurd h (by simp [hp])
  · exact absurd (hi h) (by simp [hu])

/-- Every turn keeps a session regular. -/
theorem Regular.key {x : Session} (h : Regular x) (t : Turn) : Regular (x.key t) := by
  cases keyPress_move t.1 t.2 x.lcd with
  | inside source user arrival =>
    obtain ⟨hr, ha, ho⟩ := inside_ne arrival
    exact .of_ne ho hr ha
  | inquire source user arrival =>
    rcases Bool.or_eq_true_iff.mp arrival with hi | hroot
    · obtain ⟨hr, ha, ho⟩ := inside_ne (by rw [hi, Bool.or_true, Bool.true_or])
      exact .of_ne ho hr ha
    · have hroot' : (x.key t).lcd.currentScreen = rootOf x.lcd.userId := eq_of_beq hroot
      refine ⟨fun ho => ?_, fun hf => ?_⟩
      · rw [hroot'] at ho
        change (keyPress t.1 t.2 x.lcd).userId = _
        rw [user]
        cases hu : x.lcd.userId with
        | superUser => rw [hu] at ho; exact absurd ho (by decide)
        | ordinaryUser => rfl
      · rw [hroot'] at hf
        cases hu : x.lcd.userId <;> rw [hu] at hf <;> exact absurd hf (by decide)
  | ordinary source user arrival =>
    refine ⟨fun _ => user.trans (h.ordinary source), fun hf => ?_⟩
    exfalso
    change (keyPress t.1 t.2 x.lcd).currentScreen = _ ∨ (keyPress t.1 t.2 x.lcd).currentScreen = _ at hf
    rcases hf with hf | hf <;> rw [hf] at arrival <;> exact absurd arrival (by decide)
  | password given arrival =>
    have hs : (x.key t).lcd.currentScreen = superUserRootScreen := arrival
    exact .of_ne (by rw [hs]; decide) (by rw [hs]; decide) (by rw [hs]; decide)
  | ordinaryLogin source user arrival =>
    have hs : (x.key t).lcd.currentScreen = ordinaryUserRootScreen := arrival
    refine ⟨fun _ => user, fun hf => ?_⟩
    rw [hs] at hf
    exact absurd hf (by decide)
  | alarms source alarm key user arrival =>
    have hs : (x.key t).lcd.currentScreen = inqAlarmRecordScreen := arrival
    exact .of_ne (by rw [hs]; decide) (by rw [hs]; decide) (by rw [hs]; decide)
  | login quiet arrival =>
    rw [Bool.and_eq_true, bne_iff_ne] at arrival
    obtain ⟨-, -, ho⟩ := outside_closed arrival.1
    exact ⟨fun h' => absurd h' ho, fun hf => Session.key_run (hf.resolve_right arrival.2)⟩
  | stay quiet source arrival =>
    have hs : (x.key t).lcd.currentScreen = x.lcd.currentScreen := arrival
    obtain ⟨-, -, ho⟩ := outside_closed source
    refine ⟨fun h' => absurd (hs.symm.trans h') ho, ?_⟩
    rintro (hf | hf)
    · exact Session.key_run hf
    · have ha : x.lcd.currentScreen = alarmTypeListScreen := hs.symm.trans hf
      rw [Session.key_ne_run (by rw [hf]; decide), h.fresh (Or.inr ha),
        not_passwordGiven (by rw [ha]; decide)]
      rfl

/-- A key keeps the screens guarded exactly when it does not go through the alarm list. -/
theorem key_guarded_iff {x : Session} (hr : Regular x) (hg : Guarded x) (t : Turn) :
    Guarded (x.key t) ↔ NotThroughAlarms x.lcd t := by
  have helse (h : x.lcd.currentScreen ≠ alarmTypeListScreen) : NotThroughAlarms x.lcd t :=
    fun ha => absurd ha h
  cases keyPress_move t.1 t.2 x.lcd with
  | inside source user arrival =>
    have hauth : x.authenticated = true := hg (Or.inl source)
    refine iff_of_true (.of_auth ?_) (helse fun h =>
      by rw [h] at source; exact absurd source (by decide))
    rw [Session.key_ne_run (inside_ne arrival).1, hauth]
    rfl
  | inquire source user arrival =>
    refine iff_of_true ?_ (helse fun h => by rw [h] at source; exact absurd source (by decide))
    cases hu : x.lcd.userId with
    | superUser =>
      have hauth : x.authenticated = true := hg (Or.inr ⟨source, hu⟩)
      have hne : (x.key t).lcd.currentScreen ≠ runScreen := fun h => by
        change (keyPress t.1 t.2 x.lcd).currentScreen = _ at h
        rw [h, hu] at arrival
        exact absurd arrival (by decide)
      refine .of_auth ?_
      rw [Session.key_ne_run hne, hauth]
      rfl
    | ordinaryUser =>
      refine .of_closed ?_ fun _ => user.trans hu
      rw [hu] at arrival
      change privileged (keyPress t.1 t.2 x.lcd).currentScreen = false
      revert arrival
      cases (keyPress t.1 t.2 x.lcd).currentScreen <;> decide
  | ordinary source user arrival =>
    refine iff_of_true (.of_closed ?_ fun _ => user.trans (hr.ordinary source))
      (helse (by rw [source]; decide))
    change privileged (keyPress t.1 t.2 x.lcd).currentScreen = false
    revert arrival
    cases (keyPress t.1 t.2 x.lcd).currentScreen <;> decide
  | password given arrival =>
    have hs : (x.key t).lcd.currentScreen = superUserRootScreen := arrival
    refine iff_of_true (.of_auth ?_) (helse (by rw [given.1]; decide))
    rw [Session.key_ne_run (by rw [hs]; decide), decide_eq_true given, Bool.or_true]
  | ordinaryLogin source user arrival =>
    have hs : (x.key t).lcd.currentScreen = ordinaryUserRootScreen := arrival
    exact iff_of_true (.of_closed (by rw [hs]; rfl) fun _ => user) (helse (by rw [source]; decide))
  | alarms source alarm key user arrival =>
    have hs : (x.key t).lcd.currentScreen = inqAlarmRecordScreen := arrival
    have hu : (x.key t).lcd.userId = x.lcd.userId := user
    have hauth : (x.key t).authenticated = false := by
      rw [Session.key_ne_run (by rw [hs]; decide), hr.fresh (Or.inr source),
        not_passwordGiven (by rw [source]; decide)]
      rfl
    refine ⟨fun h _ _ _ => ?_, fun h => .of_closed (by rw [hs]; rfl) fun _ =>
      hu.trans (h source alarm key)⟩
    cases hux : x.lcd.userId with
    | superUser =>
        exact absurd (hauth.symm.trans (h (Or.inr ⟨by rw [hs]; rfl, hu.trans hux⟩))) (by decide)
    | ordinaryUser => rfl
  | login quiet arrival =>
    rw [Bool.and_eq_true] at arrival
    obtain ⟨hp, hi, -⟩ := outside_closed arrival.1
    refine iff_of_true (.of_closed hp fun h => ?_) (fun ha hne hk => absurd hk (quiet ha hne))
    exact absurd (hi.symm.trans h) (by decide)
  | stay quiet source arrival =>
    have hs : (x.key t).lcd.currentScreen = x.lcd.currentScreen := arrival
    obtain ⟨hp, hi, -⟩ := outside_closed source
    refine iff_of_true (.of_closed (hs ▸ hp) fun h => ?_) (fun ha hne hk => absurd hk (quiet ha hne))
    rw [hs, hi] at h
    exact absurd h (by decide)

/-- The first half of a turn, the idle test. -/
def Session.idle (x : Session) (t : Turn) : Session := ⟨idleTurn t.1 t.2 x.lcd, x.authenticated⟩

/-- The idle test counts, and may put the alarm list in place of the run screen when no key is
    pressed. -/
theorem idleTurn_cases (e : Env) (k : Key) (s : Lcd) : (idleTurn e k s).userId = s.userId ∧
    (idleTurn e k s).inputPassword = s.inputPassword ∧
    ((idleTurn e k s).currentScreen = s.currentScreen ∨
      k = .none ∧ s.currentScreen = runScreen ∧
      (idleTurn e k s).currentScreen = alarmTypeListScreen) := by
  have hkey : (if k = .none then if s.noKeyNum < 50 then s.noKeyNum + 1 else s.noKeyNum else 0) = 50 →
      k = .none := fun h => by
    by_contra hk
    rw [if_neg hk] at h
    exact absurd h (by decide)
  rw [idleTurn]
  generalize (if k = .none then if s.noKeyNum < 50 then s.noKeyNum + 1 else s.noKeyNum else 0) = n
    at hkey ⊢
  split_ifs with h
  · exact ⟨rfl, rfl, Or.inr ⟨hkey h.1, h.2.1, rfl⟩⟩
  · exact ⟨rfl, rfl, Or.inl rfl⟩

theorem Regular.idle {x : Session} (h : Regular x) (t : Turn) : Regular (x.idle t) := by
  obtain ⟨hu, -, hs | ⟨-, hrun, hs⟩⟩ := idleTurn_cases t.1 t.2 x.lcd
  · exact ⟨fun ho => hu.trans (h.ordinary (hs.symm.trans ho)),
      fun hf => h.fresh (hf.imp hs.symm.trans hs.symm.trans)⟩
  · refine ⟨fun ho => ?_, fun _ => h.fresh (Or.inl hrun)⟩
    exact absurd (hs.symm.trans ho) (by decide)

theorem Guarded.idle {x : Session} (h : Guarded x) (t : Turn) : Guarded (x.idle t) := by
  obtain ⟨hu, -, hs | ⟨-, -, hs⟩⟩ := idleTurn_cases t.1 t.2 x.lcd
  · intro hp
    change privileged (idleTurn t.1 t.2 x.lcd).currentScreen = true ∨
      inquiry (idleTurn t.1 t.2 x.lcd).currentScreen = true ∧
        (idleTurn t.1 t.2 x.lcd).userId = .superUser at hp
    rw [hs, hu] at hp
    exact h hp
  · have hl : (x.idle t).lcd.currentScreen = alarmTypeListScreen := hs
    exact .of_closed (by rw [hl]; rfl) fun hi => by rw [hl] at hi; exact absurd hi (by decide)

theorem idle_notThroughAlarms (x : Session) (t : Turn) :
    NotThroughAlarms (x.idle t).lcd t ↔ NotThroughAlarms x.lcd t := by
  obtain ⟨hu, -, hs | ⟨hk, hrun, -⟩⟩ := idleTurn_cases t.1 t.2 x.lcd
  · change (idleTurn t.1 t.2 x.lcd).currentScreen = _ → _ → _ → (idleTurn t.1 t.2 x.lcd).userId = _ ↔ _
    rw [hs, hu]
    rfl
  · refine iff_of_true (fun _ _ he => ?_) (fun ha => ?_)
    · rw [hk] at he
      exact absurd he (by decide)
    · rw [hrun] at ha
      exact absurd ha (by decide)

theorem idle_passwordGiven (x : Session) (t : Turn) :
    PasswordGiven t.2 (x.idle t).lcd ↔ PasswordGiven t.2 x.lcd := by
  obtain ⟨hu, hp, hs | ⟨-, hrun, hs⟩⟩ := idleTurn_cases t.1 t.2 x.lcd
  · change (idleTurn t.1 t.2 x.lcd).currentScreen = _ ∧ _ ∧ (idleTurn t.1 t.2 x.lcd).userId = _ ∧
      (idleTurn t.1 t.2 x.lcd).inputPassword = _ ↔ _
    rw [hs, hu, hp]
    rfl
  · refine iff_of_false (fun h => ?_) (fun h => ?_)
    · exact absurd (hs.symm.trans h.1) (by decide)
    · exact absurd (hrun.symm.trans h.1) (by decide)

theorem turn_eq (x : Session) (t : Turn) : x.turn t = (x.idle t).key t := by
  have h : decide (PasswordGiven t.2 (x.idle t).lcd) = decide (PasswordGiven t.2 x.lcd) := by
    rw [decide_eq_decide, idle_passwordGiven]
  rw [Session.key, h]
  rfl

/-! ### Runs -/

/-- Over a run from power-on the screens of the super user are guarded exactly when no turn goes through
    the alarm list; and then a privileged screen is open only after the super password was given on this
    side of the last run screen. -/
theorem run_guarded (turns : List Turn) :
    ((∀ p ∈ Run.steps Session.turn .powerOn turns, Guarded (p.1.turn p.2)) ↔
      ∀ p ∈ Run.steps Session.turn .powerOn turns, NotThroughAlarms p.1.lcd p.2) ∧
    ((∀ p ∈ Run.steps Session.turn .powerOn turns, NotThroughAlarms p.1.lcd p.2) →
      ∀ p ∈ Run.steps Session.turn .powerOn turns,
        privileged (p.1.turn p.2).lcd.currentScreen = true → (p.1.turn p.2).authenticated = true) := by
  have hreg (x : Session) (t : Turn) (h : Regular x) : Regular (x.turn t) := by
    rw [turn_eq]
    exact (h.idle t).key t
  have hstart : Regular .powerOn := ⟨fun h => absurd h (by decide), fun _ => rfl⟩
  have hregs : ∀ p ∈ Run.steps Session.turn .powerOn turns, Regular p.1 :=
    Run.steps_inv Regular hreg turns .powerOn hstart
  have hiff : (∀ p ∈ Run.steps Session.turn .powerOn turns,
        Regular (p.1.turn p.2) ∧ Guarded (p.1.turn p.2)) ↔
      ∀ p ∈ Run.steps Session.turn .powerOn turns, NotThroughAlarms p.1.lcd p.2 :=
    Run.steps_iff (fun x => Regular x ∧ Guarded x) (fun x t => NotThroughAlarms x.lcd t)
    (fun x t hx => by
      rw [and_iff_right (hreg x t hx.1), turn_eq, key_guarded_iff (hx.1.idle t) (hx.2.idle t),
        idle_notThroughAlarms])
    turns .powerOn ⟨hstart, .of_closed rfl fun h => absurd h (by decide)⟩
  have hguard : (∀ p ∈ Run.steps Session.turn .powerOn turns, Guarded (p.1.turn p.2)) ↔
      ∀ p ∈ Run.steps Session.turn .powerOn turns, NotThroughAlarms p.1.lcd p.2 :=
    Iff.trans ⟨fun h p hp => ⟨hreg _ _ (hregs p hp), h p hp⟩, fun h p hp => (h p hp).2⟩ hiff
  exact ⟨hguard, fun hok p hp hpriv => hguard.mpr hok p hp (Or.inl hpriv)⟩

/-- Nothing is shown, both zones are fitted and no calibration is running. -/
def quiet : Env where
  alarmIdle := 0
  alarmList := 0
  fieldFlagS0D1 := false
  calibratingFlag := 0xFF
  calibrateEn _ := 1

/-- The keys of the login, the password digit by digit, and the last ENTER. -/
def passwordKeys : List Key :=
  [.enter, .up, .enter, .up] ++ ([2, 3, 4, 5, 6].flatMap fun n => .right :: List.replicate n .up) ++
    [.enter]

example : privileged ((passwordKeys.map (Prod.mk quiet)).foldl Session.turn
    .powerOn).lcd.currentScreen ∧
    ((passwordKeys.map (Prod.mk quiet)).foldl Session.turn .powerOn).authenticated := by decide +kernel

/-- An intrusion of zone A is shown, both zones are fitted and no calibration is running. -/
def intruded : Env where
  alarmIdle := 1
  alarmList := 1
  fieldFlagS0D1 := false
  calibratingFlag := 0xFF
  calibrateEn _ := 1

/-- The login screen is opened, switched to the super user and left; five seconds later the panel shows
    the alarm list, and two keys lead back from its records. -/
def throughAlarms : List Turn :=
  [(intruded, .enter), (intruded, .up), (intruded, .esc)] ++ List.replicate 50 (intruded, .none) ++
    [(intruded, .enter), (intruded, .esc), (intruded, .esc)]

/-- They lead to the root menu of the super user, and no password was given. -/
theorem not_run_guarded : ¬ ∀ turns : List Turn, ∀ p ∈ Run.steps Session.turn .powerOn turns,
    privileged (p.1.turn p.2).lcd.currentScreen = true → (p.1.turn p.2).authenticated = true := by
  intro h
  have := h throughAlarms
  revert this
  decide +kernel

end Lcd

end VectorFence
