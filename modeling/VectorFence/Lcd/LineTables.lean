import VectorFence.Calibration
import VectorFence.CString
import VectorFence.Lib.Memory

/-! The four screens of `DisplayMenu.c` with the zero and base values of a zone. The display has
    rows of 16 cells, each 8 pixels wide; a Chinese character takes two of them, as it takes two
    bytes. Values are in tenths:

        page 0   《A 防区零点值》
        page 2   L1:12.3  L2:04.5
        page 4   L3:00.0  L4:00.0          digits before the point from one expression,
        page 6   L5:00.0  L6:00.0          the digit behind it from another one

    The four functions spell out the expressions for each of the six lines. In three of them the
    digit behind the point belongs to another table for some of the lines. -/

namespace VectorFence

/-- What the display shows, by page and cell. -/
abbrev Picture := ℕ → ℕ → UInt8

namespace Picture

/-- After `Lcd_Clear(FullScreen)`. -/
def clear : Picture := fun _ _ => 32

/-- `Display_Line_Index_8x16(page, column, str, …)`. -/
def displayLine (page column : ℕ) (str : CStr) (p : Picture) : Picture :=
  Function.update p page (Memory.put (p page) (column / 8) str)

end Picture

namespace LineTable

open CStr Memory Picture

/-- `sprintf(wire, "%02d", whole / 10)`. -/
def wire (whole : Int16) : CStr := pad 2 (whole.toInt.tdiv 10)

/-- The digit behind the point, `v % 10`. -/
def tenthDigit (v : Int16) : ℤ := v.toInt.tmod 10

/-- `sprintf(wire_dot, "%01d", tenth % 10)`. -/
def wireDot (tenth : Int16) : CStr := pad 1 (tenthDigit tenth)

/-- The page and the column of a line's digits. -/
def linePage (i : Line) : ℕ := 2 + 2 * (i / 2)

def lineColumn (i : Line) : ℕ := 8 * (3 + 8 * (i % 2))

/-- The digits of a line. -/
def displayWire (whole tenth : Line → Int16) (p : Picture) (i : Line) : Picture :=
  displayLine (linePage i) (lineColumn i + 8 * 3) (wireDot (tenth i))
    (displayLine (linePage i) (lineColumn i) (wire (whole i)) p)

/-- What the four functions have in common. -/
def display (title : CStr) (whole tenth : Line → Int16) : Picture :=
  let p := displayLine 0 0 title clear
  let p := displayLine 2 0 (lit "L1:  .  L2:  . ") p
  let p := displayLine 4 0 (lit "L3:  .  L4:  . ") p
  let p := displayLine 6 0 (lit "L5:  .  L6:  . ") p
  (List.finRange 6).foldl (displayWire whole tenth) p

/-- `《A 防区零点值》` or `《B 防区零点值》`. -/
def zeroTitle (zone : UInt8) : CStr :=
  [0xA1, 0xB6, zone, 32, 0xB7, 0xC0, 0xC7, 0xF8, 0xC1, 0xE3, 0xB5, 0xE3, 0xD6, 0xB5, 0xA1, 0xB7]

/-- `《A 防区基准值》` or `《B 防区基准值》`. -/
def datumTitle (zone : UInt8) : CStr :=
  [0xA1, 0xB6, zone, 32, 0xB7, 0xC0, 0xC7, 0xF8, 0xBB, 0xF9, 0xD7, 0xBC, 0xD6, 0xB5, 0xA1, 0xB7]

/-- What `DisplayAareaZeroVal` takes the digits behind the point from. -/
def aZeroTenth (s : Adc) : Line → Int16 :=
  ![s.zeroVal 0 0, s.zeroVal 0 1, s.zeroVal 0 2, s.zeroVal 0 3, s.zeroVal 0 4, s.zeroVal 0 5]

def bZeroTenth (s : Adc) : Line → Int16 :=
  ![s.zeroVal 0 0, s.zeroVal 0 1, s.zeroVal 0 2, s.zeroVal 0 3, s.zeroVal 0 4, s.zeroVal 1 5]

def aDatumTenth (s : Adc) : Line → Int16 :=
  ![s.zeroVal 0 0, s.zeroVal 0 1, s.zeroVal 0 2, s.baseVal 0 3, s.baseVal 0 4, s.baseVal 0 5]

def bDatumTenth (s : Adc) : Line → Int16 :=
  ![s.baseVal 0 0, s.baseVal 0 1, s.baseVal 0 2, s.baseVal 0 3, s.baseVal 0 4, s.baseVal 1 5]

def displayAareaZeroVal (s : Adc) : Picture := display (zeroTitle 65) (s.zeroVal 0) (aZeroTenth s)

def displayBareaZeroVal (s : Adc) : Picture := display (zeroTitle 66) (s.zeroVal 1) (bZeroTenth s)

def displayAareaDatumVal (s : Adc) : Picture := display (datumTitle 65) (s.baseVal 0) (aDatumTenth s)

def displayBareaDatumVal (s : Adc) : Picture := display (datumTitle 66) (s.baseVal 1) (bDatumTenth s)

/-! ### The digits of a line -/

/-- What a picture shows for a line. -/
def lineText (p : Picture) (i : Line) : CStr := read (p (linePage i)) (lineColumn i / 8) 4

/-- A value in tenths: two digits, a point and a digit. -/
def tenths (v : ℕ) : CStr := dec 2 (v / 10) ++ [46] ++ dec 1 (v % 10)

/-- The values with two digits before the point. -/
def InTenths (v : Int16) : Prop := 0 ≤ v.toInt ∧ v.toInt ≤ 999

instance (v : Int16) : Decidable (InTenths v) := by unfold InTenths; infer_instance

theorem tenthDigit_eq {v : Int16} (h : 0 ≤ v.toInt) : tenthDigit v = (v.toInt.toNat % 10 : ℕ) := by
  rw [tenthDigit, Int.tmod_eq_emod_of_nonneg h]
  omega

theorem wireDot_eq {v : Int16} (h : 0 ≤ v.toInt) : wireDot v = dec 1 (v.toInt.toNat % 10) := by
  rw [wireDot, tenthDigit_eq h, pad_natCast]

theorem wire_eq {v : Int16} (h : 0 ≤ v.toInt) : wire v = dec 2 (v.toInt.toNat / 10) := by
  have hdiv : v.toInt.tdiv 10 = (v.toInt.toNat / 10 : ℕ) := by
    rw [Int.tdiv_eq_ediv_of_nonneg h]
    omega
  rw [wire, hdiv, pad_natCast]

theorem exists_wire {v : Int16} (h : InTenths v) : ∃ a b, wire v = [a, b] := by
  have hge := le_length_pad 2 (v.toInt.tdiv 10)
  have hle : (wire v).length ≤ 2 := by
    rw [wire_eq h.1, length_dec_le (by norm_num) le_rfl]
    have := h.2
    omega
  rw [← wire] at hge
  exact List.length_eq_two.mp (by omega)

theorem exists_wireDot {v : Int16} (h : InTenths v) : ∃ a, wireDot v = [a] := by
  have hge := le_length_pad 1 (tenthDigit v)
  have hle : (wireDot v).length ≤ 1 := by
    rw [wireDot_eq h.1, length_dec_le (by norm_num) le_rfl]
    omega
  rw [← wireDot] at hge
  exact List.length_eq_one_iff.mp (by omega)

section Display

variable {whole tenth tenth' : Line → Int16} (title : CStr)

/-- The digits are in the gaps of the text, with its point between them. -/
theorem lineText_display (hwhole : ∀ i, InTenths (whole i)) (htenth : ∀ i, InTenths (tenth i))
    (i : Line) :
    lineText (display title whole tenth) i = wire (whole i) ++ [46] ++ wireDot (tenth i) := by
  choose a b hab using fun i => exists_wire (hwhole i)
  choose c hc using fun i => exists_wireDot (htenth i)
  have hlines : List.finRange 6 = [0, 1, 2, 3, 4, 5] := rfl
  simp only [display, displayWire, hab, hc, hlines, List.foldl_cons, List.foldl_nil]
  fin_cases i <;> rfl

/-- A line shows a value when the digit behind the point is the one of that value. -/
theorem lineText_iff (hwhole : ∀ i, InTenths (whole i)) (htenth : ∀ i, InTenths (tenth i)) (i : Line) :
    lineText (display title whole tenth) i = tenths (whole i).toInt.toNat ↔
      tenthDigit (tenth i) = tenthDigit (whole i) := by
  rw [lineText_display title hwhole htenth, wire_eq (hwhole i).1, wireDot_eq (htenth i).1, tenths,
    List.append_cancel_left_eq, tenthDigit_eq (htenth i).1, tenthDigit_eq (hwhole i).1, Nat.cast_inj]
  exact ⟨dec_inj, congrArg (dec 1)⟩

/-- Of the second table a screen shows the digits behind the point. -/
theorem display_congr (h : ∀ i, tenthDigit (tenth i) = tenthDigit (tenth' i)) :
    display title whole tenth = display title whole tenth' := by
  have hwire : displayWire whole tenth = displayWire whole tenth' := by
    funext p i
    rw [displayWire, displayWire, wireDot, wireDot, h i]
  rw [display, display, hwire]

end Display

/-! ### The four screens -/

/-- The table a screen is for. -/
def own (s : Adc) : Target → Zone → Line → Int16
  | .zero, f => s.zeroVal f
  | .base, f => s.baseVal f

/-- The table its digits behind the point are from. -/
def tenth (s : Adc) : Target → Zone → Line → Int16
  | .zero, f => if f = 0 then aZeroTenth s else bZeroTenth s
  | .base, f => if f = 0 then aDatumTenth s else bDatumTenth s

def screen (s : Adc) : Target → Zone → Picture
  | .zero, f => if f = 0 then displayAareaZeroVal s else displayBareaZeroVal s
  | .base, f => if f = 0 then displayAareaDatumVal s else displayBareaDatumVal s

/-- All values are displayed with all their digits. -/
def InTables (s : Adc) : Prop := ∀ f i, InTenths (s.zeroVal f i) ∧ InTenths (s.baseVal f i)

instance (s : Adc) : Decidable (InTables s) := by unfold InTables; infer_instance

/-- Every line shows the value of the screen's own zone and table. -/
def ShowsOwn (s : Adc) (t : Target) (f : Zone) : Prop :=
  ∀ i, lineText (screen s t f) i = tenths (own s t f i).toInt.toNat

/-- The values that the digits behind the point are taken from end with the digits of the right ones. -/
def SameTenths (s : Adc) : Target → Zone → Prop
  | .zero, f => f = 1 → ∀ i : Line, i < 5 → tenthDigit (s.zeroVal 0 i) = tenthDigit (s.zeroVal 1 i)
  | .base, f =>
    if f = 0 then ∀ i : Line, i < 3 → tenthDigit (s.zeroVal 0 i) = tenthDigit (s.baseVal 0 i)
    else ∀ i : Line, i < 5 → tenthDigit (s.baseVal 0 i) = tenthDigit (s.baseVal 1 i)

variable {s s' : Adc} {t : Target} {f : Zone}

theorem sameTenths_iff : SameTenths s t f ↔
    ∀ i, tenthDigit (tenth s t f i) = tenthDigit (own s t f i) := by
  cases t with
  | zero =>
    rcases zone_cases f with rfl | rfl
    · simp [SameTenths, tenth, own, aZeroTenth, Fin.forall_fin_succ]
    · simp [SameTenths, tenth, own, bZeroTenth, Fin.forall_fin_succ]
  | base =>
    rcases zone_cases f with rfl | rfl
    · simp [SameTenths, tenth, own, aDatumTenth, Fin.forall_fin_succ]
    · simp [SameTenths, tenth, own, bDatumTenth, Fin.forall_fin_succ]

theorem exists_title (t : Target) (f : Zone) :
    ∃ title, ∀ s, screen s t f = display title (own s t f) (tenth s t f) := by
  cases t with
  | zero =>
    rcases zone_cases f with rfl | rfl
    · exact ⟨zeroTitle 65, fun s => rfl⟩
    · exact ⟨zeroTitle 66, fun s => rfl⟩
  | base =>
    rcases zone_cases f with rfl | rfl
    · exact ⟨datumTitle 65, fun s => rfl⟩
    · exact ⟨datumTitle 66, fun s => rfl⟩

theorem inTenths_own (h : InTables s) (t : Target) (f : Zone) (i : Line) : InTenths (own s t f i) := by
  cases t with
  | zero => exact (h f i).1
  | base => exact (h f i).2

/-- What holds in all tables holds of the values the digits behind the point are taken from. -/
theorem forall_tenth {P : Int16 → Prop} (h : ∀ t f i, P (own s t f i)) (t : Target) (f : Zone) :
    ∀ i, P (tenth s t f i) := by
  have hzero (f : Zone) (i : Line) : P (s.zeroVal f i) := h .zero f i
  have hbase (f : Zone) (i : Line) : P (s.baseVal f i) := h .base f i
  cases t with
  | zero =>
    rcases zone_cases f with rfl | rfl
    · simp [tenth, aZeroTenth, Fin.forall_fin_succ, hzero]
    · simp [tenth, bZeroTenth, Fin.forall_fin_succ, hzero]
  | base =>
    rcases zone_cases f with rfl | rfl
    · simp [tenth, aDatumTenth, Fin.forall_fin_succ, hzero, hbase]
    · simp [tenth, bDatumTenth, Fin.forall_fin_succ, hbase]

theorem showsOwn_iff (h : InTables s) (t : Target) (f : Zone) : ShowsOwn s t f ↔ SameTenths s t f := by
  obtain ⟨title, hscreen⟩ := exists_title t f
  rw [ShowsOwn, hscreen, sameTenths_iff]
  exact forall_congr' fun i =>
    lineText_iff title (inTenths_own h t f) (forall_tenth (inTenths_own h) t f) i

/-- What a screen then shows is told by its own table. -/
theorem screen_congr (hown : own s' t f = own s t f) (hs : SameTenths s t f) (hs' : SameTenths s' t f) :
    screen s' t f = screen s t f := by
  obtain ⟨title, hscreen⟩ := exists_title t f
  rw [sameTenths_iff] at hs hs'
  rw [hscreen, hscreen, hown]
  refine display_congr title fun i => ?_
  rw [hs i, hs' i, hown]

/-- Each screen shows its own table, and nothing of the others, as long as the digits it takes from
    them agree. -/
theorem screens_showOwn_iff (s : Adc) (h : InTables s) (t : Target) (f : Zone) :
    (ShowsOwn s t f ↔ SameTenths s t f) ∧
      ∀ s', own s' t f = own s t f → SameTenths s t f → SameTenths s' t f →
      screen s' t f = screen s t f :=
  ⟨showsOwn_iff h t f, fun _ hown hs hs' => screen_congr hown hs hs'⟩

/-- The first line of zone A has a zero value of half a kilogram, all other values are 0. -/
def halfKilo : Adc := { Adc.default with zeroVal := ![![5, 0, 0, 0, 0, 0], fun _ => 0] }

theorem screens_showOwn_halfKilo :
    InTables halfKilo ∧ (ShowsOwn halfKilo .zero 0 ↔ SameTenths halfKilo .zero 0) :=
  ⟨by decide, (screens_showOwn_iff halfKilo (by decide) .zero 0).1⟩

/-- The zero screen of zone B shows that half kilogram. -/
theorem not_screens_showOwn : ¬ ∀ s, InTables s → ∀ t f, ShowsOwn s t f := by
  intro h
  have hsame := (showsOwn_iff (by decide) .zero 1).mp (h halfKilo (by decide) .zero 1)
  exact absurd (hsame rfl 0 (by decide)) (by decide)

end LineTable

end VectorFence
