import VectorFence.Clock.RoundTrip
import VectorFence.Lcd.Address

/-! The date and time editor of `main_task`. ENTER in one of its rows copies the running time, UP
    and DOWN turn two digits of the copy, ENTER sets the clock to it:

        rtcTempStr ──ENTER──▶ rtcTempStr_temp_test ──UP, DOWN──▶ · ──ENTER──▶ rtcTempStr, PCF8563_Set_Str
            ▲
        watch_task, once a second

    Every part of the time goes round within limits of its own; those of the day are 1 and 31,
    whatever the month is. -/

namespace VectorFence

open CStr Calendar Lcd
open AddrText (UpDown)

/-- The two digits that are edited at once. -/
inductive TimePart where | year | month | day | hour | minute | second
  deriving DecidableEq, Repr

namespace TimePart

/-- The first digit in `"YYYY-MM-DD hh:mm:ss"`. -/
def place : TimePart → ℕ
  | .year => 2
  | .month => 5
  | .day => 8
  | .hour => 11
  | .minute => 14
  | .second => 17

/-- The digits that UP comes to after the last ones. -/
def low : TimePart → UInt8 × UInt8
  | .year => (49, 48)
  | .month | .day => (48, 49)
  | .hour | .minute | .second => (48, 48)

def top : TimePart → UInt8 × UInt8
  | .year => (57, 57)
  | .month => (49, 50)
  | .day => (51, 49)
  | .hour => (50, 51)
  | .minute | .second => (53, 57)

/-- The part at `row_fx_pos` of a row. -/
def marked (row : UInt8) (fx : ℤ) : Option TimePart :=
  let parts (x y z : TimePart) : Option TimePart :=
    if fx = 1 then some x else if fx = 2 then some y else if fx = 3 then some z else none
  if row = 1 then parts .year .month .day else if row = 2 then parts .hour .minute .second else none

def upDigits (low top d : UInt8 × UInt8) : UInt8 × UInt8 :=
  if d.1 < top.1 then if d.2 < 57 then (d.1, d.2 + 1) else (d.1 + 1, 48)
  else if d.1 = top.1 then if d.2 < top.2 then (d.1, d.2 + 1) else low
  else d

def downDigits (low top d : UInt8 × UInt8) : UInt8 × UInt8 :=
  if d.1 > low.1 then if d.2 > 48 then (d.1, d.2 - 1) else (d.1 - 1, 57)
  else if d.1 = low.1 then if d.2 > low.2 then (d.1, d.2 - 1) else top
  else d

/-- UP or DOWN on one part of the text. -/
def press (move : UInt8 × UInt8 → UInt8 × UInt8 → UInt8 × UInt8 → UInt8 × UInt8) (p : TimePart)
    (t : CStr) : CStr :=
  let d := move p.low p.top (t.getD p.place 0, t.getD (p.place + 1) 0)
  (t.set p.place d.1).set (p.place + 1) d.2

end TimePart

/-- The menu with the two texts of the time. -/
structure TimePanel where
  lcd : Lcd
  rtcTempStr : CStr
  rtcTempStrTempTest : CStr

namespace TimePanel

/-- `SetDateTimeScreen` of `main_task`, for the texts. -/
def editTime (k : Key) (s : Lcd) (d : TimePanel) : TimePanel :=
  match s.flagPageState, k with
  | .normalState, .enter =>
      if s.rowPoint = 1 ∨ s.rowPoint = 2 then { d with rtcTempStrTempTest := d.rtcTempStr } else d
  | .modifyState, .esc => { d with rtcTempStrTempTest := d.rtcTempStr }
  | .modifyState, .enter => { d with rtcTempStr := d.rtcTempStrTempTest }
  | .modifyState, .up =>
      { d with rtcTempStrTempTest := (TimePart.marked s.rowPoint s.rowFxPos).elim d.rtcTempStrTempTest fun p =>
          p.press TimePart.upDigits d.rtcTempStrTempTest }
  | .modifyState, .down =>
      { d with rtcTempStrTempTest := (TimePart.marked s.rowPoint s.rowFxPos).elim d.rtcTempStrTempTest fun p =>
          p.press TimePart.downDigits d.rtcTempStrTempTest }
  | _, _ => d

/-- The editor is open on its screen. -/
def Editing (s : Lcd) : Prop := s.currentScreen = .setDateTimeScreen ∧ s.flagPageState = .modifyState

instance (s : Lcd) : Decidable (Editing s) := inferInstanceAs (Decidable (_ ∧ _))

/-- A turn of `main_task`, or `watch_task` reading the clock, which shows a time. -/
inductive Act where
  | turn (e : Env) (k : Key)
  | clock (c : { c : DateTime // 2000 ≤ c.year ∧ c.year < 2100 })

def step (d : TimePanel) : Act → TimePanel
  | .turn e k =>
      let s := idleTurn e k d.lcd
      let d := if s.currentScreen = .setDateTimeScreen then d.editTime k s else d
      { d with lcd := keyPress e k s }
  | .clock c => { d with rtcTempStr := timeText c }

/-- What is passed to `PCF8563_Set_Str`. -/
def passes (d : TimePanel) : Act → Option CStr
  | .turn e k => if Editing (idleTurn e k d.lcd) ∧ k = .enter then some d.rtcTempStrTempTest else none
  | .clock _ => none

end TimePanel

/-! ### The text and its numbers -/

/-- The text of a time of this century, from the numbers of its parts. -/
def numText (v : TimePart → ℕ) : CStr :=
  lit "20" ++ dec 2 (v .year) ++ 45 :: (dec 2 (v .month) ++ 45 :: (dec 2 (v .day) ++ 32 ::
    (dec 2 (v .hour) ++ 58 :: (dec 2 (v .minute) ++ 58 :: dec 2 (v .second)))))

/-- A text that denotes a time of the calendar. -/
def IsTimeText (t : CStr) : Prop := ∃ c : DateTime, (2000 ≤ c.year ∧ c.year < 2100) ∧ t = timeText c

/-- The numbers are those of a time. -/
def IsTimeNumbers (v : TimePart → ℕ) : Prop :=
  v .year < 100 ∧ IsDate (2000 + v .year) (v .month) (v .day) ∧ IsTime (v .hour) (v .minute) (v .second)

/-- The numbers of a time. -/
def partsOf (c : DateTime) : TimePart → ℕ
  | .year => c.year - 2000
  | .month => c.month
  | .day => c.day
  | .hour => c.hour
  | .minute => c.minute
  | .second => c.second

theorem timeText_eq {c : DateTime} (hc : 2000 ≤ c.year ∧ c.year < 2100) :
    timeText c = numText (partsOf c) := by
  rw [timeText, RtcTd.dec_year hc]
  rfl

theorem isTimeNumbers_partsOf {c : DateTime} (hc : 2000 ≤ c.year ∧ c.year < 2100) :
    IsTimeNumbers (partsOf c) := by
  have hyear : 2000 + partsOf c .year = c.year := Nat.add_sub_cancel' hc.1
  have hdate := c.date
  rw [← hyear] at hdate
  exact ⟨by omega, hdate, c.time⟩

/-- The two digits of a number. -/
def pair (n : ℕ) : UInt8 × UInt8 := (UInt8.ofNat (48 + n / 10), UInt8.ofNat (48 + n % 10))

theorem dec_two {n : ℕ} (hn : n < 100) : dec 2 n = [(pair n).1, (pair n).2] := by
  have h : ∀ n < 100, dec 2 n = [(pair n).1, (pair n).2] := by decide
  exact h n hn

theorem pair_inj {m n : ℕ} (hm : m < 100) (hn : n < 100) (h : pair m = pair n) : m = n := by
  have htens := congrArg UInt8.toNat (congrArg Prod.fst h)
  have hunits := congrArg UInt8.toNat (congrArg Prod.snd h)
  simp only [pair, UInt8.toNat_ofNat'] at htens hunits
  omega

/-- The text, from the digits of its parts. -/
def pairText (d : TimePart → UInt8 × UInt8) : CStr :=
  [50, 48, (d .year).1, (d .year).2, 45, (d .month).1, (d .month).2, 45, (d .day).1, (d .day).2, 32,
    (d .hour).1, (d .hour).2, 58, (d .minute).1, (d .minute).2, 58, (d .second).1, (d .second).2]

theorem pairText_inj {d e : TimePart → UInt8 × UInt8} (h : pairText d = pairText e) : d = e := by
  simp only [pairText, List.cons.injEq, true_and, and_true] at h
  funext p
  cases p <;> refine Prod.ext ?_ ?_ <;> tauto

theorem press_pairText (move : UInt8 × UInt8 → UInt8 × UInt8 → UInt8 × UInt8 → UInt8 × UInt8)
    (p : TimePart)
    (d : TimePart → UInt8 × UInt8) :
    p.press move (pairText d) = pairText (Function.update d p (move p.low p.top (d p))) := by
  cases p <;> rfl

namespace IsTimeNumbers

variable {v : TimePart → ℕ}

theorem lt (h : IsTimeNumbers v) (p : TimePart) : v p < 100 := by
  obtain ⟨hy, ⟨-, hm, -, hd⟩, hh, hmin, hs⟩ := h
  have hle := daysIn_le (2000 + v .year) (v .month)
  cases p <;> omega

end IsTimeNumbers

theorem numText_eq {v : TimePart → ℕ} (h : ∀ p, v p < 100) :
    numText v = pairText fun p => pair (v p) := by
  rw [numText, dec_two (h .year), dec_two (h .month), dec_two (h .day), dec_two (h .hour),
    dec_two (h .minute),
    dec_two (h .second)]
  rfl

/-- Only the numbers of a time are shown as the text of one. -/
theorem isTimeText_numText {v : TimePart → ℕ} (h : ∀ p, v p < 100) :
    IsTimeText (numText v) ↔ IsTimeNumbers v := by
  constructor
  · rintro ⟨c, hc, htext⟩
    have hparts := isTimeNumbers_partsOf hc
    rw [timeText_eq hc, numText_eq h, numText_eq hparts.lt] at htext
    have hv : v = partsOf c := funext fun p =>
      pair_inj (h p) (hparts.lt p) (congrFun (pairText_inj htext) p)
    rw [hv]
    exact hparts
  · rintro ⟨hyear, hdate, htime⟩
    have hc : 2000 ≤ 2000 + v .year ∧ 2000 + v .year < 2100 := by omega
    refine ⟨⟨2000 + v .year, v .month, v .day, v .hour, v .minute, v .second, hdate, htime⟩, hc, ?_⟩
    rw [timeText_eq hc]
    congr 1
    funext p
    cases p with
    | year => exact (Nat.add_sub_cancel_left ..).symm
    | _ => rfl

/-! ### A key on a part -/

namespace TimePart

/-- The limits between which a part goes round. -/
def lo : TimePart → ℕ
  | .year => 10
  | .month | .day => 1
  | .hour | .minute | .second => 0

def hi : TimePart → ℕ
  | .year => 99
  | .month => 12
  | .day => 31
  | .hour => 23
  | .minute | .second => 59

/-- What a key makes of the number. A year before 2010 is below the limit, and DOWN leaves it. -/
def turned (m : UpDown) (p : TimePart) (n : ℕ) : ℕ :=
  match m with
  | .up => if n = p.hi then p.lo else n + 1
  | .down => if n = p.lo then p.hi else if n < p.lo then n else n - 1

def digits : UpDown → UInt8 × UInt8 → UInt8 × UInt8 → UInt8 × UInt8 → UInt8 × UInt8
  | .up => upDigits
  | .down => downDigits

/-- The numbers that a time has at a part. -/
def InRange (p : TimePart) (n : ℕ) : Prop := n ≤ p.hi ∧ (p = .year ∨ p.lo ≤ n)

instance (p : TimePart) (n : ℕ) : Decidable (p.InRange n) := inferInstanceAs (Decidable (_ ∧ _))

theorem lo_le_hi (p : TimePart) : p.lo ≤ p.hi ∧ p.hi < 100 := by cases p <;> decide

theorem digits_pair (m : UpDown) {p : TimePart} {n : ℕ} (h : p.InRange n) :
    digits m p.low p.top (pair n) = pair (p.turned m n) := by
  have hall : ∀ n < 100, p.InRange n → digits m p.low p.top (pair n) = pair (p.turned m n) := by
    cases p <;> cases m <;> decide
  exact hall n (h.1.trans_lt p.lo_le_hi.2) h

theorem turned_up (p : TimePart) (n : ℕ) :
    n = p.hi ∧ p.turned .up n = p.lo ∨ n ≠ p.hi ∧ p.turned .up n = n + 1 := by
  rw [turned]
  split_ifs with h
  · exact Or.inl ⟨h, rfl⟩
  · exact Or.inr ⟨h, rfl⟩

theorem turned_down (p : TimePart) (n : ℕ) :
    n = p.lo ∧ p.turned .down n = p.hi ∨ n < p.lo ∧ p.turned .down n = n ∨
      p.lo < n ∧ p.turned .down n = n - 1 := by
  rw [turned]
  split_ifs with h h'
  · exact Or.inl ⟨h, rfl⟩
  · exact Or.inr (Or.inl ⟨h', rfl⟩)
  · exact Or.inr (Or.inr ⟨by omega, rfl⟩)

/-- A part stays within its limits. -/
theorem turned_le (m : UpDown) {p : TimePart} {n : ℕ} (h : p.InRange n) : p.turned m n ≤ p.hi := by
  obtain ⟨hle, -⟩ := h
  obtain ⟨hlo, -⟩ := p.lo_le_hi
  cases m with
  | up => rcases p.turned_up n with h | h <;> omega
  | down => rcases p.turned_down n with h | h | h <;> omega

end TimePart

namespace IsTimeNumbers

variable {v : TimePart → ℕ}

theorem inRange (h : IsTimeNumbers v) (p : TimePart) : p.InRange (v p) := by
  obtain ⟨hy, ⟨hm0, hm, hd0, hd⟩, hh, hmin, hs⟩ := h
  have hle := daysIn_le (2000 + v .year) (v .month)
  cases p with
  | year => exact ⟨Nat.le_of_lt_succ hy, Or.inl rfl⟩
  | month => exact ⟨hm, Or.inr hm0⟩
  | day => exact ⟨hd.trans hle, Or.inr hd0⟩
  | hour => exact ⟨Nat.le_of_lt_succ hh, Or.inr (Nat.zero_le _)⟩
  | minute => exact ⟨Nat.le_of_lt_succ hmin, Or.inr (Nat.zero_le _)⟩
  | second => exact ⟨Nat.le_of_lt_succ hs, Or.inr (Nat.zero_le _)⟩

theorem turned_lt (h : IsTimeNumbers v) (m : UpDown) (p q : TimePart) :
    Function.update v p (p.turned m (v p)) q < 100 := by
  rcases eq_or_ne q p with rfl | hq
  · rw [Function.update_self]
    exact (TimePart.turned_le m (h.inRange q)).trans_lt q.lo_le_hi.2
  · rw [Function.update_of_ne hq]
    exact h.lt q

/-- The numbers after a key. -/
theorem press_numText (h : IsTimeNumbers v) (m : UpDown) (p : TimePart) :
    p.press (TimePart.digits m) (numText v) = numText (Function.update v p (p.turned m (v p))) := by
  rw [numText_eq h.lt, numText_eq (h.turned_lt m p), press_pairText,
    TimePart.digits_pair m (h.inRange p)]
  congr 1
  funext q
  rcases eq_or_ne q p with rfl | hq
  · rw [Function.update_self, Function.update_self]
  · rw [Function.update_of_ne hq, Function.update_of_ne hq]

end IsTimeNumbers

/-- A key takes the day past the end of the month. -/
def Outruns (m : UpDown) (p : TimePart) (c : DateTime) : Prop :=
  match p with
  | .year => c.month = 2 ∧ c.day = 29 ∧ (m = .up ∨ 2010 ≤ c.year)
  | .month => daysIn c.year (TimePart.turned m .month c.month) < c.day
  | .day =>
      daysIn c.year c.month < 31 ∧ (m = .up ∧ c.day = daysIn c.year c.month ∨ m = .down ∧ c.day = 1)
  | .hour | .minute | .second => False

section Turned

variable (m : UpDown) (c : DateTime)

theorem turned_year (hc : 2000 ≤ c.year ∧ c.year < 2100) :
    IsDate (2000 + TimePart.turned m .year (c.year - 2000)) c.month c.day ↔ ¬Outruns m .year c := by
  rw [IsDate.other_year c.date, Outruns]
  -- In this century every fourth year is a leap year, and the years beside it are not.
  have hyear (hm : c.month = 2) (hd : c.day = 29) :
      IsLeap (2000 + TimePart.turned m .year (c.year - 2000)) ↔ ¬(m = .up ∨ 2010 ≤ c.year) := by
    have hleap : IsLeap c.year := IsDate.leap (hm ▸ c.date) hd
    cases m with
    | up =>
      have hup := TimePart.turned_up .year (c.year - 2000)
      simp only [IsLeap, TimePart.hi, TimePart.lo, true_or, not_true, iff_false] at hleap hup ⊢
      omega
    | down =>
      have hdown := TimePart.turned_down .year (c.year - 2000)
      simp only [IsLeap, TimePart.hi, TimePart.lo, reduceCtorEq, false_or] at hleap hdown ⊢
      omega
  constructor
  · rintro himp ⟨hm, hd, hbad⟩
    exact (hyear hm hd).mp (himp hm hd) hbad
  · intro hkeep hm hd
    exact (hyear hm hd).mpr fun hbad => hkeep ⟨hm, hd, hbad⟩

theorem turned_month : IsDate c.year (TimePart.turned m .month c.month) c.day ↔
    ¬Outruns m .month c := by
  obtain ⟨hm0, hm, hd0, -⟩ := c.date
  have hturned : 1 ≤ TimePart.turned m .month c.month ∧ TimePart.turned m .month c.month ≤ 12 := by
    cases m with
    | up =>
      have hup := TimePart.turned_up .month c.month
      simp only [TimePart.hi, TimePart.lo] at hup
      omega
    | down =>
      have hdown := TimePart.turned_down .month c.month
      simp only [TimePart.hi, TimePart.lo] at hdown
      omega
  simp only [IsDate, Outruns, hturned.1, hturned.2, hd0, true_and, not_lt]

theorem turned_day : IsDate c.year c.month (TimePart.turned m .day c.day) ↔ ¬Outruns m .day c := by
  obtain ⟨hm0, hm, hd0, hd⟩ := c.date
  have hle := daysIn_le c.year c.month
  simp only [IsDate, Outruns, hm0, hm, true_and]
  cases m with
  | up =>
    have hup := TimePart.turned_up .day c.day
    simp only [TimePart.hi, TimePart.lo, true_and, reduceCtorEq, false_and, or_false] at hup ⊢
    omega
  | down =>
    have hdown := TimePart.turned_down .day c.day
    simp only [TimePart.hi, TimePart.lo, true_and, reduceCtorEq, false_and, false_or] at hdown ⊢
    omega

/-- A key keeps a time a time, unless it takes the day past the end of the month. -/
theorem turned_iff (hc : 2000 ≤ c.year ∧ c.year < 2100) (p : TimePart) :
    IsTimeNumbers (Function.update (partsOf c) p (p.turned m (partsOf c p))) ↔ ¬Outruns m p c := by
  have hparts := isTimeNumbers_partsOf hc
  have hle := TimePart.turned_le m (hparts.inRange p)
  obtain ⟨hy, hdate, hh, hmin, hs⟩ := hparts
  have hyear : 2000 + partsOf c .year = c.year := Nat.add_sub_cancel' hc.1
  rw [IsTimeNumbers]
  cases p with
  | year =>
    rw [← turned_year m c hc]
    exact ⟨fun h => h.2.1, fun h => ⟨Nat.lt_succ_of_le hle, h, hh, hmin, hs⟩⟩
  | month =>
    rw [← turned_month m c, ← hyear]
    exact ⟨fun h => h.2.1, fun h => ⟨hy, h, hh, hmin, hs⟩⟩
  | day =>
    rw [← turned_day m c, ← hyear]
    exact ⟨fun h => h.2.1, fun h => ⟨hy, h, hh, hmin, hs⟩⟩
  | hour => exact iff_of_true ⟨hy, hdate, Nat.lt_succ_of_le hle, hmin, hs⟩ id
  | minute => exact iff_of_true ⟨hy, hdate, hh, Nat.lt_succ_of_le hle, hs⟩ id
  | second => exact iff_of_true ⟨hy, hdate, hh, hmin, Nat.lt_succ_of_le hle⟩ id

/-- UP or DOWN on the text of a time. -/
theorem press_isTimeText (hc : 2000 ≤ c.year ∧ c.year < 2100) (p : TimePart) :
    IsTimeText (p.press (TimePart.digits m) (timeText c)) ↔ ¬Outruns m p c := by
  have hparts := isTimeNumbers_partsOf hc
  rw [timeText_eq hc, hparts.press_numText m p, isTimeText_numText (hparts.turned_lt m p),
    turned_iff m c hc p]

end Turned

namespace TimePanel

variable {d : TimePanel}

/-! ### Keys in the editor -/

/-- No editor is open but on its screen, and what is edited is a time, like what is running. -/
structure Sound (d : TimePanel) : Prop where
  screen : OnEditor d.lcd
  running : IsTimeText d.rtcTempStr
  edited : Editing d.lcd → IsTimeText d.rtcTempStrTempTest

/-- In the editor, UP and DOWN leave the day within its month. -/
def Keeps (d : TimePanel) : Act → Prop
  | .turn _ k => Editing d.lcd → ∀ m : UpDown, k = m.key →
      ∀ p ∈ TimePart.marked d.lcd.rowPoint d.lcd.rowFxPos,
        ∀ c : DateTime, 2000 ≤ c.year ∧ c.year < 2100 → d.rtcTempStrTempTest = timeText c →
        ¬Outruns m p c
  | .clock _ => True

theorem onEditor_keyPress (e : Env) (k : Key) {s : Lcd} (h : OnEditor s) :
    OnEditor (keyPress e k s) := by
  intro hm
  obtain ⟨hsame, hed, -⟩ := keyPress_editing e k h hm
  rw [hsame]
  exact hed

/-- ENTER in one of the rows opens the editor. -/
theorem keyPress_opens (e : Env) {k : Key} {s : Lcd} (hs : s.currentScreen = .setDateTimeScreen)
    (hpage : s.flagPageState = .normalState) (h : (keyPress e k s).flagPageState = .modifyState) :
    k = .enter ∧ (s.rowPoint = 1 ∨ s.rowPoint = 2) := by
  obtain ⟨screen, row, fx, user, password, page, idle⟩ := s
  simp only at hs hpage
  subst hs hpage
  cases k with
  | enter =>
    refine ⟨rfl, ?_⟩
    by_contra hrow
    have hstart : startRows 2 row = none := by
      refine if_neg fun hrows => hrow ?_
      simp only [← UInt8.toNat_inj, UInt8.reduceToNat]
      omega
    have hsame : keyPress e .enter ⟨.setDateTimeScreen, row, fx, user, password, .normalState, idle⟩ =
        (startRows 2 row).elim ⟨.setDateTimeScreen, row, fx, user, password, .normalState,
        idle⟩ fun u =>
          Lcd.set u ⟨.setDateTimeScreen, row, fx, user, password, .normalState, idle⟩ := rfl
    rw [hsame, hstart] at h
    exact absurd h (by simp)
  | _ => exact absurd h PageState.noConfusion

/-- ESC and ENTER close it. -/
theorem keyPress_open (e : Env) (k : Key) {s : Lcd} (hs : Editing s) :
    Editing (keyPress e k s) ↔ k ≠ .esc ∧ k ≠ .enter := by
  obtain ⟨hscreen, hpage⟩ := hs
  obtain ⟨screen, row, fx, user, password, page, idle⟩ := s
  simp only at hscreen hpage
  subst hscreen hpage
  cases k with
  | esc | enter => exact iff_of_false (fun h => PageState.noConfusion h.2) (by simp)
  | _ => exact iff_of_true ⟨rfl, rfl⟩ (by simp)

/-- Nothing that the editor reads changes before the key. -/
theorem idleTurn_editing (e : Env) (k : Key) {s : Lcd} (hs : s.currentScreen = .setDateTimeScreen) :
    ∃ n, idleTurn e k s = { s with noKeyNum := n } :=
  idleTurn_counts e k (by rw [hs]; decide)

/-- UP or DOWN in the open editor. -/
theorem editTime_upDown (m : UpDown) {s : Lcd} (hs : Editing s) : d.editTime m.key s =
    { d with rtcTempStrTempTest := (TimePart.marked s.rowPoint s.rowFxPos).elim d.rtcTempStrTempTest fun p =>
        p.press (TimePart.digits m) d.rtcTempStrTempTest } := by
  cases m <;> simp only [editTime, hs.2] <;> rfl

/-- ENTER in the open editor alone sets the running time. -/
theorem editTime_running (k : Key) (s : Lcd) : (d.editTime k s).rtcTempStr = d.rtcTempStr ∨
    s.flagPageState = .modifyState ∧ (d.editTime k s).rtcTempStr = d.rtcTempStrTempTest := by
  simp only [editTime]
  cases s.flagPageState with
  | normalState =>
    cases k with
    | enter =>
      simp only
      split_ifs <;> exact Or.inl rfl
    | _ => exact Or.inl rfl
  | modifyState =>
    cases k with
    | enter => exact Or.inr ⟨rfl, rfl⟩
    | _ => exact Or.inl rfl

/-- The turns of the menu on the screen of the editor. -/
theorem step_editor (hs : d.lcd.currentScreen = .setDateTimeScreen) (e : Env) (k : Key) : ∃ n,
    d.step (.turn e k) = { d.editTime k { d.lcd with noKeyNum := n } with
      lcd := keyPress e k { d.lcd with noKeyNum := n } } := by
  obtain ⟨n, hn⟩ := idleTurn_editing e k hs
  refine ⟨n, ?_⟩
  simp only [step, hn, hs, if_true]

/-- On other screens the texts stay. -/
theorem step_elsewhere (hs : d.lcd.currentScreen ≠ .setDateTimeScreen) (e : Env) (k : Key) :
    d.step (.turn e k) = { d with lcd := keyPress e k (idleTurn e k d.lcd) } := by
  have hidle := (idleTurn_screen e k d.lcd (x := .setDateTimeScreen) (by decide) (by decide)).not.mpr hs
  simp only [step, if_neg hidle]

theorem Sound.onEditor_step (h : d.Sound) (e : Env) (k : Key) : OnEditor (d.step (.turn e k)).lcd :=
  onEditor_keyPress e k (h.screen.idleTurn e k)

theorem Sound.running_step (h : d.Sound) (a : Act) : IsTimeText (d.step a).rtcTempStr := by
  cases a with
  | clock c => exact ⟨c.1, c.2, rfl⟩
  | turn e k =>
    by_cases hs : d.lcd.currentScreen = .setDateTimeScreen
    · obtain ⟨n, hstep⟩ := step_editor hs e k
      rw [hstep]
      rcases editTime_running (d := d) k { d.lcd with noKeyNum := n } with hrun | ⟨hm, hrun⟩
      · exact hrun ▸ h.running
      · exact hrun ▸ h.edited ⟨hs, hm⟩
    · rw [step_elsewhere hs]
      exact h.running

/-- ENTER opens the editor with the running time. -/
theorem Sound.step_closed (h : d.Sound) (hclosed : ¬Editing d.lcd) (e : Env) (k : Key) :
    (d.step (.turn e k)).Sound := by
  by_cases hs : d.lcd.currentScreen = .setDateTimeScreen
  · have hpage : d.lcd.flagPageState = .normalState := not_modify_iff.mp fun hm => hclosed ⟨hs, hm⟩
    have hon := h.onEditor_step e k
    obtain ⟨n, hstep⟩ := step_editor hs e k
    rw [hstep] at hon ⊢
    refine ⟨hon, ?_, fun hopen => ?_⟩
    · rcases editTime_running (d := d) k { d.lcd with noKeyNum := n } with hrun | ⟨hm, -⟩
      · exact hrun ▸ h.running
      · exact absurd ⟨hs, hm⟩ hclosed
    · obtain ⟨rfl, hrow⟩ := keyPress_opens e (s := { d.lcd with noKeyNum := n }) hs hpage hopen.2
      simp only [editTime, hpage, if_pos hrow]
      exact h.running
  · have hon := h.onEditor_step e k
    rw [step_elsewhere hs] at hon ⊢
    refine ⟨hon, h.running, fun hopen => absurd ?_ hs⟩
    have hsame := (keyPress_editing e k (h.screen.idleTurn e k) hopen.2).1
    exact (idleTurn_screen e k d.lcd (by decide) (by decide)).mp (hsame.symm.trans hopen.1)

/-- A key that leaves the text as it is. -/
theorem Sound.step_same (h : d.Sound) (hopen : Editing d.lcd) (e : Env) {k : Key}
    (hsame : ∀ s : Lcd, s.flagPageState = .modifyState → d.editTime k s = d) :
    (d.step (.turn e k)).Sound := by
  have hon := h.onEditor_step e k
  obtain ⟨n, hstep⟩ := step_editor hopen.1 e k
  rw [hstep, hsame { d.lcd with noKeyNum := n } hopen.2] at hon ⊢
  exact ⟨hon, h.running, fun _ => h.edited hopen⟩

/-- ESC and ENTER leave the editor closed, with the text that was edited or the one before it. -/
theorem Sound.step_closes (h : d.Sound) (hopen : Editing d.lcd) (e : Env) {k : Key}
    (hk : k = .esc ∨ k = .enter) :
    (d.step (.turn e k)).Sound := by
  have hon := h.onEditor_step e k
  obtain ⟨n, hstep⟩ := step_editor hopen.1 e k
  rw [hstep] at hon ⊢
  refine ⟨hon, ?_, fun hstill => ?_⟩
  · rcases hk with rfl | rfl
    · simp only [editTime, hopen.2]
      exact h.running
    · simp only [editTime, hopen.2]
      exact h.edited hopen
  · obtain ⟨hesc, henter⟩ := (keyPress_open e k (s := { d.lcd with noKeyNum := n }) hopen).mp hstill
    rcases hk with hk | hk
    · exact absurd hk hesc
    · exact absurd hk henter

/-- UP and DOWN. -/
theorem Sound.step_upDown (h : d.Sound) (hopen : Editing d.lcd) (e : Env) (m : UpDown) :
    (d.step (.turn e m.key)).Sound ↔ d.Keeps (.turn e m.key) := by
  obtain ⟨c, hc, htext⟩ := h.edited hopen
  have hon := h.onEditor_step e m.key
  obtain ⟨n, hstep⟩ := step_editor hopen.1 e m.key
  have hstill : Editing (keyPress e m.key { d.lcd with noKeyNum := n }) :=
    (keyPress_open e m.key (s := { d.lcd with noKeyNum := n }) hopen).mpr (by cases m <;> decide)
  rw [hstep, editTime_upDown m (s := { d.lcd with noKeyNum := n }) hopen] at hon ⊢
  rcases hp : TimePart.marked d.lcd.rowPoint d.lcd.rowFxPos with _ | p
  · refine iff_of_true ⟨hon, h.running, fun _ => ?_⟩ fun _ _ _ p hmem => ?_
    · simp only [Option.elim]
      exact h.edited hopen
    · rw [hp] at hmem
      exact absurd hmem (by simp)
  · constructor
    · intro hsound hopen' m' hm' q hq c' hc' htext'
      have hnew := hsound.edited hstill
      simp only [Option.elim] at hnew
      rw [hp] at hq
      obtain rfl := Option.some.inj hq
      rw [← UpDown.key_inj hm', ← press_isTimeText m c' hc', ← htext']
      exact hnew
    · intro hkeeps
      refine ⟨hon, h.running, fun _ => ?_⟩
      simp only [Option.elim]
      rw [htext, press_isTimeText m c hc]
      exact hkeeps hopen m rfl p hp c hc htext

/-- One action. -/
theorem Sound.step_iff (h : d.Sound) (a : Act) : (d.step a).Sound ↔ d.Keeps a := by
  cases a with
  | clock c => exact iff_of_true ⟨h.screen, ⟨c.1, c.2, rfl⟩, h.edited⟩ trivial
  | turn e k =>
    by_cases hopen : Editing d.lcd
    · have hkeeps (hk : ∀ m : UpDown, k ≠ m.key) : d.Keeps (.turn e k) := fun _ m hm => absurd hm (hk m)
      cases k with
      | up => exact h.step_upDown hopen e .up
      | down => exact h.step_upDown hopen e .down
      | esc =>
          exact iff_of_true (h.step_closes hopen e (Or.inl rfl)) (hkeeps fun m => by cases m <;> decide)
      | enter =>
          exact iff_of_true (h.step_closes hopen e (Or.inr rfl)) (hkeeps fun m => by cases m <;> decide)
      | left | right | none =>
        refine iff_of_true (h.step_same hopen e fun s hs => ?_) (hkeeps fun m => by cases m <;> decide)
        simp only [editTime, hs]
    · exact iff_of_true (h.step_closed hopen e k) fun hed => absurd hed hopen

/-! ### Runs -/

/-- A device that shows a time, with no editor open. -/
structure Start where
  lcd : Lcd
  closed : lcd.flagPageState = .normalState
  time : DateTime
  century : 2000 ≤ time.year ∧ time.year < 2100
  scratch : CStr

def Start.panel (x : Start) : TimePanel := ⟨x.lcd, timeText x.time, x.scratch⟩

theorem Start.not_modify (x : Start) : x.panel.lcd.flagPageState ≠ .modifyState :=
  not_modify_iff.mpr x.closed

theorem Start.sound (x : Start) : x.panel.Sound where
  screen := fun hm => absurd hm x.not_modify
  running := ⟨x.time, x.century, rfl⟩
  edited := fun hopen => absurd hopen.2 x.not_modify

theorem editing_idleTurn (e : Env) (k : Key) (s : Lcd) : Editing (idleTurn e k s) ↔ Editing s := by
  rw [Editing, Editing, idleTurn_screen e k s (by decide) (by decide), idleTurn_page]

/-- What a sound panel passes on is a time. -/
theorem Sound.passes (h : d.Sound) (a : Act) {t : CStr} (ht : t ∈ d.passes a) : IsTimeText t := by
  cases a with
  | clock c => exact absurd ht (by simp [TimePanel.passes])
  | turn e k =>
    rw [TimePanel.passes] at ht
    split_ifs at ht with hpass
    · obtain rfl := Option.some.inj ht
      exact h.edited ((editing_idleTurn e k d.lcd).mp hpass.1)
    · exact absurd ht (by simp)

/-- ENTER passes on what is edited, so that only a sound panel has times to pass on. -/
theorem Sound.step_passes (h : d.Sound) (a : Act) :
    (∀ b, ∀ t ∈ (d.step a).passes b, IsTimeText t) ↔ (d.step a).Sound := by
  constructor
  · intro hpass
    refine ⟨?_, h.running_step a, fun hopen => ?_⟩
    · cases a with
      | turn e k => exact h.onEditor_step e k
      | clock c => exact h.screen
    · refine hpass (.turn Panel.quiet .enter) _ ?_
      rw [TimePanel.passes, if_pos ⟨(editing_idleTurn _ _ _).mpr hopen, rfl⟩]
      exact Option.mem_some_self _
  · intro hsound b t ht
    exact hsound.passes b ht

/-- What ENTER passes to the clock is a time, and would be after every key, exactly as long as UP
    and DOWN in the editor leave the day within its month. -/
theorem passes_times_iff (x : Start) (as : List Act) :
    ((∀ q ∈ Run.steps step x.panel as, q.1.Keeps q.2) →
      ∀ q ∈ Run.steps step x.panel as, ∀ t ∈ q.1.passes q.2, IsTimeText t) ∧
    ((∀ q ∈ Run.steps step x.panel as, ∀ b, ∀ t ∈ (q.1.step q.2).passes b, IsTimeText t) ↔
      ∀ q ∈ Run.steps step x.panel as, q.1.Keeps q.2) := by
  constructor
  · intro hkeeps q hq
    have hsound := Run.steps_inv_of_steps Sound
      (fun _ a h hk => (h.step_iff a).mpr hk) as _ x.sound hkeeps q hq
    exact fun t ht => hsound.passes q.2 ht
  · exact Run.steps_iff_of Sound (fun d a => ∀ b, ∀ t ∈ (d.step a).passes b, IsTimeText t) Keeps
      (fun _ a h hpass => (h.step_passes a).mp hpass) (fun _ a h =>
      (h.step_passes a).trans (h.step_iff a)) as _ x.sound

/-! ### The last day of January -/

/-- The editor's screen at the end of 31 January 2018. -/
def january : Start where
  lcd := { powerOn with currentScreen := .setDateTimeScreen, rowPoint := 1 }
  closed := rfl
  time := ⟨2018, 1, 31, 16, 27, 0, by decide, by decide⟩
  century := by decide
  scratch := List.replicate 19 0

/-- The month, one up. -/
def toFebruary : List Act := [.turn Panel.quiet .enter, .turn Panel.quiet .right, .turn Panel.quiet .up]

theorem february : (toFebruary.foldl step january.panel).rtcTempStrTempTest = lit
    "2018-02-31 16:27:00" ∧
    Editing (toFebruary.foldl step january.panel).lcd := by
  decide

/-- The numbers of the 31st of February. -/
def february31 : TimePart → ℕ
  | .year => 18
  | .month => 2
  | .day => 31
  | .hour => 16
  | .minute => 27
  | .second => 0

theorem not_passes_times : ¬ ∀ (x : Start) (as : List Act), ∀ q ∈ Run.steps step x.panel as,
    ∀ t ∈ q.1.passes q.2,
    IsTimeText t := by
  intro h
  have hlast : (toFebruary.foldl step january.panel, Act.turn Panel.quiet .enter) ∈
      Run.steps step january.panel (toFebruary ++ [.turn Panel.quiet .enter]) := by
    rw [Run.steps_append]
    exact List.mem_append_right _ (List.mem_singleton_self _)
  have htext := h january _ _ hlast (lit "2018-02-31 16:27:00") (by
    rw [TimePanel.passes, if_pos ⟨(editing_idleTurn _ _ _).mpr february.2, rfl⟩, february.1]
    exact Option.mem_some_self _)
  have hnum : lit "2018-02-31 16:27:00" = numText february31 := by decide
  rw [hnum, isTimeText_numText (fun p => by cases p <;> decide)] at htext
  exact absurd htext.2.1 (by decide)

end TimePanel

end VectorFence
