import VectorFence.Lcd.Commit
import VectorFence.Lwip

/-! The address editors of `main_task`, three copies of one piece of code, and the functions of
    `DisplayMenu.c` between an address and its text:

        192.168.000.022        places 1 2 3 · 5 6 7 · 9 10 11 · 13 14 15

    UP and DOWN keep the first digit of a group below 3 and, behind a 2, the second one below 6. The
    third digit is not looked at, so a group can get as far as 259. -/

namespace VectorFence

open Lcd

/-- The addresses that have an editor. -/
inductive AddrField where | ip | netmask | gateway
  deriving DecidableEq, Repr

def AddrField.screen : AddrField → Screen
  | .ip => .setIpAddrScreen
  | .netmask => .setSubnetMaskScreen
  | .gateway => .setGateWayScreen

/-- The address among the network parameters. -/
def AddrField.get (l : LwipDev) : AddrField → Fin 4 → UInt8
  | .ip => l.ip
  | .netmask => l.netmask
  | .gateway => l.gateway

namespace AddrText

/-- `GetIpAddr()`, `GetSubNetMask()`, `GetGateWay()`. -/
def ofAddr (a : Fin 4 → UInt8) : AddrText := fun j =>
  if h : j < 16 then
    let b := a ⟨j / 4, by omega⟩
    if j % 4 = 0 then 0x30 + b / 100
    else if j % 4 = 1 then 0x30 + b % 100 / 10
    else if j % 4 = 2 then 0x30 + b % 100 % 10
    else 46
  else 0

/-- `SetIpAddr()`, `SetSubNetMask()`, `SetGateWay()`. -/
def toAddr (t : AddrText) : Fin 4 → UInt8 := fun i =>
  (t (4 * i) - 0x30) * 100 + (t (4 * i + 1) - 0x30) * 10 + (t (4 * i + 2) - 0x30)

/-- UP or DOWN at `row_fx_pos`. -/
def press (move : UInt8 → UInt8 → UInt8) (fx : ℤ) (t : AddrText) : AddrText :=
  let j := (fx - 1).toNat
  if ¬(1 ≤ fx ∧ fx ≤ 15) then t
  else if fx % 4 = 1 then
    let t := Function.update t j (move 50 (t j))
    if t j = 50 ∧ t (j + 1) > 53 then Function.update t (j + 1) 48 else t
  else if fx % 4 = 2 then Function.update t j (move (if t (j - 1) = 50 then 53 else 57) (t j))
  else if fx % 4 = 3 then Function.update t j (move 57 (t j))
  else t

end AddrText

namespace Host

def text (h : Host) : AddrField → AddrText
  | .ip => h.ethIpAddr
  | .netmask => h.ethSubnetMask
  | .gateway => h.ethGateway

def setText (t : AddrText) (h : Host) : AddrField → Host
  | .ip => { h with ethIpAddr := t }
  | .netmask => { h with ethSubnetMask := t }
  | .gateway => { h with ethGateway := t }

def addr (h : Host) (f : AddrField) : Fin 4 → UInt8 := f.get h.lwipdev

def setAddr (a : Fin 4 → UInt8) (h : Host) : AddrField → Host
  | .ip => h.setLwipdev { h.lwipdev with ip := a }
  | .netmask => h.setLwipdev { h.lwipdev with netmask := a }
  | .gateway => h.setLwipdev { h.lwipdev with gateway := a }

/-- ENTER in a menu of the network parameters. -/
def openAddr (row : UInt8) (h : Host) : Host :=
  if row = 2 then h.setText (AddrText.ofAddr (h.addr .ip)) .ip
  else if row = 3 then h.setText (AddrText.ofAddr (h.addr .netmask)) .netmask
  else if row = 4 then h.setText (AddrText.ofAddr (h.addr .gateway)) .gateway
  else h

def addrEditor (x : AddrField) (k : Key) (s : Lcd) (h : Host) : Host :=
  match k with
  | .enter => (h.setAddr (h.text x).toAddr x).lwipResetNetifIpaddr
  | .up => h.setText ((h.text x).press Panel.upDigit s.rowFxPos) x
  | .down => h.setText ((h.text x).press Panel.downDigit s.rowFxPos) x
  | _ => h

/-- What a key does to the addresses and their texts. -/
def addrEffect (k : Key) (s : Lcd) (h : Host) : Host :=
  match s.currentScreen, k with
  | .setEthParaScreen, .enter | .inqEthParaScreen, .enter => h.openAddr s.rowPoint
  | .setIpAddrScreen, k => h.addrEditor .ip k s
  | .setSubnetMaskScreen, k => h.addrEditor .netmask k s
  | .setGateWayScreen, k => h.addrEditor .gateway k s
  | _, _ => h

/-- One turn of the loop of `main_task`. -/
def turn (e : Env) (pins : Fin 2 → Bool) (k : Key) (h : Host) : Host :=
  if h.panel.running then
    (h.addrEffect k (idleTurn e k h.panel.lcd)).onPanel fun p => p.turn e pins k
  else h

end Host

namespace AddrText

/-! ### Groups of digits -/

variable {t : AddrText}

/-- The number that three digits show. -/
def decimal (a b c : ℕ) : ℕ := (a - 48) * 100 + (b - 48) * 10 + (c - 48)

/-- What the keys keep of three digits: the first one is at most 2, and behind a 2 the second one at
    most 5. -/
structure Digits (a b c : ℕ) : Prop where
  first : 48 ≤ a ∧ a ≤ 50
  second : 48 ≤ b ∧ b ≤ 57
  third : 48 ≤ c ∧ c ≤ 57
  capped : a = 50 → b ≤ 53

def number (t : AddrText) (i : Fin 4) : ℕ :=
  decimal (t (4 * i)).toNat (t (4 * i + 1)).toNat (t (4 * i + 2)).toNat

def Group (t : AddrText) (i : Fin 4) : Prop :=
  Digits (t (4 * i)).toNat (t (4 * i + 1)).toNat (t (4 * i + 2)).toNat

/-- Four numbers that a byte can hold, so that each is the byte that is stored. -/
def Octets (t : AddrText) : Prop := ∀ i, t.number i ≤ 255 ∧ (t.toAddr i).toNat = t.number i

/-- The digits of a byte. -/
theorem ofAddr_digits (a : Fin 4 → UInt8) (i : Fin 4) :
    (ofAddr a (4 * i)).toNat = 48 + (a i).toNat / 100 ∧
      (ofAddr a (4 * i + 1)).toNat = 48 + (a i).toNat % 100 / 10 ∧
      (ofAddr a (4 * i + 2)).toNat = 48 + (a i).toNat % 100 % 10 := by
  have hi := i.isLt
  have hb := (a i).toNat_lt
  have hbyte {j : ℕ} (hj : j / 4 = i) (hlt : j / 4 < 4) : a ⟨j / 4, hlt⟩ = a i :=
    congrArg a (Fin.ext hj)
  have h0 : ofAddr a (4 * i) = 0x30 + a i / 100 := by
    rw [ofAddr, dif_pos (by omega)]
    simp only [show 4 * (i : ℕ) % 4 = 0 by omega, if_true]
    rw [hbyte (by omega)]
  have h1 : ofAddr a (4 * i + 1) = 0x30 + a i % 100 / 10 := by
    rw [ofAddr, dif_pos (by omega)]
    simp only [show (4 * (i : ℕ) + 1) % 4 = 1 by omega, one_ne_zero, if_false, if_true]
    rw [hbyte (by omega)]
  have h2 : ofAddr a (4 * i + 2) = 0x30 + a i % 100 % 10 := by
    rw [ofAddr, dif_pos (by omega)]
    simp only [show (4 * (i : ℕ) + 2) % 4 = 2 by omega, two_ne_zero,
      show ¬(2 : ℕ) = 1 by omega, if_false,
      if_true]
    rw [hbyte (by omega)]
  rw [h0, h1, h2]
  simp only [UInt8.toNat_add, UInt8.toNat_div, UInt8.toNat_mod, UInt8.reduceToNat]
  omega

theorem ofAddr_group (a : Fin 4 → UInt8) (i : Fin 4) :
    (ofAddr a).Group i ∧ (ofAddr a).number i = (a i).toNat := by
  have hb := (a i).toNat_lt
  obtain ⟨h0, h1, h2⟩ := ofAddr_digits a i
  refine ⟨⟨?_, ?_, ?_, ?_⟩, ?_⟩
  · omega
  · omega
  · omega
  · omega
  · rw [number, h0, h1, h2, decimal]
    omega

/-- The byte that is stored is the number modulo 256. -/
theorem toAddr_toNat {i : Fin 4} (h : t.Group i) : (t.toAddr i).toNat = t.number i % 256 := by
  obtain ⟨h0, h1, h2, -⟩ := h
  simp only [toAddr, number, decimal, UInt8.toNat_add, UInt8.toNat_mul, UInt8.toNat_sub,
    UInt8.reduceToNat]
  omega

theorem octets_iff (h : ∀ i, t.Group i) : t.Octets ↔ ∀ i, t.number i ≤ 255 := by
  constructor
  · intro ht i
    exact (ht i).1
  · intro ht i
    have hi := ht i
    refine ⟨hi, ?_⟩
    rw [toAddr_toNat (h i)]
    omega

theorem toAddr_ofAddr (a : Fin 4 → UInt8) : (ofAddr a).toAddr = a := by
  funext i
  obtain ⟨hgroup, hnumber⟩ := ofAddr_group a i
  have hb := (a i).toNat_lt
  refine UInt8.toNat_inj.mp ?_
  rw [toAddr_toNat hgroup, hnumber]
  omega

/-! ### A key in a group -/

section Press

variable (move : UInt8 → UInt8 → UInt8) (i : Fin 4)

/-- The first digit; the second one follows it. -/
theorem press_first (t : AddrText) :
    t.press move (4 * (i : ℤ) + 1) (4 * i) = move 50 (t (4 * i)) ∧
      t.press move (4 * (i : ℤ) + 1) (4 * i + 1) =
        (if move 50 (t (4 * i)) = 50 ∧ t (4 * i + 1) > 53 then 48 else t (4 * i + 1)) ∧
      ∀ j, j ≠ 4 * (i : ℕ) → j ≠ 4 * i + 1 → t.press move (4 * (i : ℤ) + 1) j = t j := by
  have hi := i.isLt
  have hj : (4 * (i : ℤ) + 1 - 1).toNat = 4 * i := by omega
  have hpress : t.press move (4 * (i : ℤ) + 1) =
      (let t := Function.update t (4 * (i : ℕ)) (move 50 (t (4 * i)))
        if t (4 * i) = 50 ∧ t (4 * i + 1) > 53 then Function.update t (4 * i + 1) 48 else t) := by
    rw [press, hj, if_neg (by omega), if_pos (by omega)]
  have hne : 4 * (i : ℕ) + 1 ≠ 4 * i := by omega
  rw [hpress]
  simp only [Function.update_self, Function.update_of_ne hne]
  split_ifs with h
  · refine ⟨?_, Function.update_self .., fun j h0 h1 => ?_⟩
    · rw [Function.update_of_ne hne.symm, Function.update_self]
    · rw [Function.update_of_ne h1, Function.update_of_ne h0]
  · exact ⟨Function.update_self .., Function.update_of_ne hne ..,
      fun j h0 _ => Function.update_of_ne h0 ..⟩

theorem press_second (t : AddrText) :
    t.press move (4 * (i : ℤ) + 2) = Function.update t (4 * (i : ℕ) + 1)
      (move (if t (4 * i) = 50 then 53 else 57) (t (4 * i + 1))) := by
  have hi := i.isLt
  have hj : (4 * (i : ℤ) + 2 - 1).toNat = 4 * i + 1 := by omega
  rw [press, hj, if_neg (by omega), if_neg (by omega), if_pos (by omega), Nat.add_sub_cancel]

theorem press_third (t : AddrText) :
    t.press move (4 * (i : ℤ) + 3) = Function.update t (4 * (i : ℕ) + 2) (move 57 (t (4 * i + 2))) := by
  have hi := i.isLt
  have hj : (4 * (i : ℤ) + 3 - 1).toNat = 4 * i + 2 := by omega
  rw [press, hj, if_neg (by omega), if_neg (by omega), if_neg (by omega), if_pos (by omega)]

end Press

/-- UP and DOWN go round among the digits up to the last one. -/
theorem digit_moves {last c : UInt8} (hc : 48 ≤ c.toNat) (hlast : c.toNat ≤ last.toNat)
    (h57 : last.toNat ≤ 57) :
    (Panel.upDigit last c).toNat = (if c.toNat = last.toNat then 48 else c.toNat + 1) ∧
      (Panel.downDigit last c).toNat = if c.toNat = 48 then last.toNat else c.toNat - 1 := by
  have hup : (c + 1).toNat = c.toNat + 1 := by
    simp only [UInt8.toNat_add, UInt8.reduceToNat]
    omega
  have hdown : (c - 1).toNat = c.toNat - 1 := by
    simp only [UInt8.toNat_sub, UInt8.reduceToNat]
    omega
  constructor
  · rw [Panel.upDigit]
    simp only [gt_iff_lt, UInt8.lt_iff_toNat_lt, hup]
    split_ifs with h h' h'
    · rfl
    · omega
    · omega
    · exact hup
  · rw [Panel.downDigit]
    simp only [UInt8.lt_iff_toNat_lt, hdown, UInt8.reduceToNat]
    split_ifs with h h' h'
    · rfl
    · omega
    · omega
    · exact hdown

/-- UP and DOWN. -/
inductive UpDown where | up | down
  deriving DecidableEq, Repr

def UpDown.move : UpDown → UInt8 → UInt8 → UInt8
  | .up => Panel.upDigit
  | .down => Panel.downDigit

def UpDown.digit : UpDown → ℕ → ℕ → ℕ
  | .up, last, c => if c = last then 48 else c + 1
  | .down, last, c => if c = 48 then last else c - 1

theorem toNat_move (k : UpDown) (last : UInt8) {c : UInt8} (hc : 48 ≤ c.toNat)
    (hlast : c.toNat ≤ last.toNat)
    (h57 : last.toNat ≤ 57) : (k.move last c).toNat = k.digit last.toNat c.toNat := by
  obtain ⟨hup, hdown⟩ := digit_moves hc hlast h57
  cases k with
  | up => exact hup
  | down => exact hdown

def UpDown.key : UpDown → Key
  | .up => .up
  | .down => .down

theorem UpDown.key_inj {k m : UpDown} (h : k.key = m.key) : k = m := by
  cases k <;> cases m <;> first | rfl | exact absurd h (by decide)

/-- A key on digit `n` of a group makes 256 to 259 of a number that is at most 255. -/
def OverflowsAt (k : UpDown) (i : Fin 4) (n : ℤ) (t : AddrText) : Prop :=
  (n = 1 ∧ t (4 * i + 1) = 53 ∧ 53 < t (4 * i + 2) ∧
    (k = .up ∧ t (4 * i) = 49 ∨ k = .down ∧ t (4 * i) = 48)) ∨
  (n = 2 ∧ t (4 * i) = 50 ∧ 53 < t (4 * i + 2) ∧
    (k = .up ∧ t (4 * i + 1) = 52 ∨ k = .down ∧ t (4 * i + 1) = 48)) ∨
  (n = 3 ∧ t (4 * i) = 50 ∧ t (4 * i + 1) = 53 ∧
    (k = .up ∧ t (4 * i + 2) = 53 ∨ k = .down ∧ t (4 * i + 2) = 48))

def Overflows (k : UpDown) (fx : ℤ) (t : AddrText) : Prop := ∃ i : Fin 4, OverflowsAt k i (fx - 4 * i) t

/-- The digits of a group after a key, from the digits before it. -/
theorem press_digits (k : UpDown) {i : Fin 4} {t : AddrText} (h : t.Group i) :
    ((t.press k.move (4 * (i : ℤ) + 1) (4 * i)).toNat = k.digit 50 (t (4 * i)).toNat ∧
      (t.press k.move (4 * (i : ℤ) + 1) (4 * i + 1)).toNat =
        if k.digit 50 (t (4 * i)).toNat = 50 ∧ 53 < (t (4 * i + 1)).toNat then 48 else
        (t (4 * i + 1)).toNat) ∧
    (t.press k.move (4 * (i : ℤ) + 2) (4 * i + 1)).toNat =
      k.digit (if (t (4 * i)).toNat = 50 then 53 else 57) (t (4 * i + 1)).toNat ∧
    (t.press k.move (4 * (i : ℤ) + 3) (4 * i + 2)).toNat = k.digit 57 (t (4 * i + 2)).toNat := by
  obtain ⟨h0, h1, h2, hcap⟩ := h
  obtain ⟨hfirst, hfirst', -⟩ := press_first k.move i t
  have hmove := toNat_move k 50 h0.1 h0.2 (by decide)
  refine ⟨⟨?_, ?_⟩, ?_, ?_⟩
  · rw [hfirst, hmove]
    rfl
  · rw [hfirst']
    simp only [← UInt8.toNat_inj, gt_iff_lt, UInt8.lt_iff_toNat_lt, hmove, UInt8.reduceToNat]
    split_ifs <;> rfl
  · rw [press_second, Function.update_self]
    by_cases h50 : t (4 * i) = 50
    · have h50' : (t (4 * i)).toNat = 50 := by rw [h50]; rfl
      rw [if_pos h50, if_pos h50']
      exact toNat_move k 53 h1.1 (hcap h50') (by decide)
    · have h50' : ¬(t (4 * i)).toNat = 50 := fun h => h50 (UInt8.toNat_inj.mp h)
      rw [if_neg h50, if_neg h50']
      exact toNat_move k 57 h1.1 h1.2 (by decide)
  · rw [press_third, Function.update_self]
    exact toNat_move k 57 h2.1 h2.2 (by decide)

/-- The digit that is marked. -/
def Place (fx : ℤ) : Prop := 1 ≤ fx ∧ fx ≤ 15 ∧ fx % 4 ≠ 0

theorem Place.group {fx : ℤ} (h : Place fx) :
    ∃ (i : Fin 4) (n : ℤ), fx = 4 * i + n ∧ (n = 1 ∨ n = 2 ∨ n = 3) := by
  obtain ⟨h0, h1, h2⟩ := h
  refine ⟨⟨((fx - 1) / 4).toNat, by omega⟩, (fx - 1) % 4 + 1, ?_, by omega⟩
  simp only
  omega

theorem overflows_iff {k : UpDown} {i : Fin 4} {n : ℤ} {t : AddrText} (hn : n = 1 ∨ n = 2 ∨ n = 3) :
    Overflows k (4 * i + n) t ↔ OverflowsAt k i n t := by
  constructor
  · rintro ⟨i', h⟩
    have hn' : 4 * (i : ℤ) + n - 4 * i' = 1 ∨ 4 * (i : ℤ) + n - 4 * i' = 2 ∨
      4 * (i : ℤ) + n - 4 * i' = 3 := by
      rcases h with h | h | h
      · exact Or.inl h.1
      · exact Or.inr (Or.inl h.1)
      · exact Or.inr (Or.inr h.1)
    have hii : i' = i := Fin.ext (by omega)
    subst hii
    rwa [add_sub_cancel_left] at h
  · intro h
    refine ⟨i, ?_⟩
    rwa [add_sub_cancel_left]

/-- A key leaves the other groups alone. -/
theorem press_other (move : UInt8 → UInt8 → UInt8) (i : Fin 4) {n : ℤ} (hn : n = 1 ∨ n = 2 ∨ n = 3)
    (t : AddrText)
    {j : ℕ} (hj : j / 4 ≠ i) : t.press move (4 * (i : ℤ) + n) j = t j := by
  rcases hn with rfl | rfl | rfl
  · exact (press_first move i t).2.2 j (by omega) (by omega)
  · rw [press_second, Function.update_of_ne (by omega)]
  · rw [press_third, Function.update_of_ne (by omega)]

/-- A key on the first digit. -/
theorem digits_first (k : UpDown) {a b c : ℕ} (h : Digits a b c) :
    Digits (k.digit 50 a) (if k.digit 50 a = 50 ∧ 53 < b then 48 else b) c ∧ (decimal a b c ≤ 255 →
      (decimal (k.digit 50 a) (if k.digit 50 a = 50 ∧ 53 < b then 48 else b) c ≤ 255 ↔
        ¬(b = 53 ∧ 53 < c ∧ (k = .up ∧ a = 49 ∨ k = .down ∧ a = 48)))) := by
  obtain ⟨h0, h1, h2, hcap⟩ := h
  simp only [decimal]
  cases k with
  | up =>
    simp only [UpDown.digit, reduceCtorEq, true_and, false_and, or_false]
    split_ifs <;> exact ⟨⟨by omega, by omega, by omega, by omega⟩, by omega⟩
  | down =>
    simp only [UpDown.digit, reduceCtorEq, true_and, false_and, false_or]
    split_ifs <;> exact ⟨⟨by omega, by omega, by omega, by omega⟩, by omega⟩

theorem digits_second (k : UpDown) {a b c : ℕ} (h : Digits a b c) :
    Digits a (k.digit (if a = 50 then 53 else 57) b) c ∧ (decimal a b c ≤ 255 →
      (decimal a (k.digit (if a = 50 then 53 else 57) b) c ≤ 255 ↔
        ¬(a = 50 ∧ 53 < c ∧ (k = .up ∧ b = 52 ∨ k = .down ∧ b = 48)))) := by
  obtain ⟨h0, h1, h2, hcap⟩ := h
  simp only [decimal]
  cases k with
  | up =>
    simp only [UpDown.digit, reduceCtorEq, true_and, false_and, or_false]
    split_ifs <;> exact ⟨⟨by omega, by omega, by omega, by omega⟩, by omega⟩
  | down =>
    simp only [UpDown.digit, reduceCtorEq, true_and, false_and, false_or]
    split_ifs <;> exact ⟨⟨by omega, by omega, by omega, by omega⟩, by omega⟩

theorem digits_third (k : UpDown) {a b c : ℕ} (h : Digits a b c) :
    Digits a b (k.digit 57 c) ∧ (decimal a b c ≤ 255 → (decimal a b (k.digit 57 c) ≤ 255 ↔
      ¬(a = 50 ∧ b = 53 ∧ (k = .up ∧ c = 53 ∨ k = .down ∧ c = 48)))) := by
  obtain ⟨h0, h1, h2, hcap⟩ := h
  simp only [decimal]
  cases k with
  | up =>
    simp only [UpDown.digit, reduceCtorEq, true_and, false_and, or_false]
    split_ifs <;> exact ⟨⟨by omega, by omega, by omega, by omega⟩, by omega⟩
  | down =>
    simp only [UpDown.digit, reduceCtorEq, true_and, false_and, false_or]
    split_ifs <;> exact ⟨⟨by omega, by omega, by omega, by omega⟩, by omega⟩

/-- The group with the marked digit. -/
theorem press_group (k : UpDown) {i : Fin 4} {n : ℤ} {t : AddrText} (hn : n = 1 ∨ n = 2 ∨ n = 3)
    (h : t.Group i) : (t.press k.move (4 * (i : ℤ) + n)).Group i ∧ (t.number i ≤ 255 →
      ((t.press k.move (4 * (i : ℤ) + n)).number i ≤ 255 ↔ ¬OverflowsAt k i n t)) := by
  obtain ⟨⟨hd0, hd0'⟩, hd1, hd2⟩ := press_digits k h
  simp only [Group, number, OverflowsAt, ← UInt8.toNat_inj, UInt8.lt_iff_toNat_lt, UInt8.reduceToNat]
  rcases hn with rfl | rfl | rfl
  · have hc := congrArg UInt8.toNat ((press_first k.move i t).2.2 (4 * i + 2) (by omega) (by omega))
    rw [hd0, hd0', hc]
    simpa using digits_first k h
  · have ha : (t.press k.move (4 * (i : ℤ) + 2) (4 * i)).toNat = (t (4 * i)).toNat := by
      rw [press_second, Function.update_of_ne (by omega)]
    have hc : (t.press k.move (4 * (i : ℤ) + 2) (4 * i + 2)).toNat = (t (4 * i + 2)).toNat := by
      rw [press_second, Function.update_of_ne (by omega)]
    rw [ha, hd1, hc]
    simpa using digits_second k h
  · have ha : (t.press k.move (4 * (i : ℤ) + 3) (4 * i)).toNat = (t (4 * i)).toNat := by
      rw [press_third, Function.update_of_ne (by omega)]
    have hb : (t.press k.move (4 * (i : ℤ) + 3) (4 * i + 1)).toNat = (t (4 * i + 1)).toNat := by
      rw [press_third, Function.update_of_ne (by omega)]
    rw [ha, hb, hd2]
    simpa using digits_third k h

/-- The other groups. -/
theorem press_group_other (k : UpDown) {i j : Fin 4} {n : ℤ} {t : AddrText} (hn : n = 1 ∨ n = 2 ∨ n = 3)
    (hj : j ≠ i) : ((t.press k.move (4 * (i : ℤ) + n)).Group j ↔ t.Group j) ∧
      (t.press k.move (4 * (i : ℤ) + n)).number j = t.number j := by
  have hsame (m : ℕ) (hm : m < 3) : t.press k.move (4 * (i : ℤ) + n) (4 * j + m) = t (4 * j + m) := by
    refine press_other k.move i hn t fun hdiv => hj (Fin.ext ?_)
    omega
  have h0 := hsame 0 (by omega)
  rw [Nat.add_zero] at h0
  rw [Group, number, h0, hsame 1 (by omega), hsame 2 (by omega)]
  exact ⟨Iff.rfl, rfl⟩

section Press

variable (k : UpDown) {fx : ℤ} {t : AddrText}

/-- UP and DOWN keep the digits digits. -/
theorem press_groups (hfx : Place fx) (h : ∀ i, t.Group i) (j : Fin 4) :
    (t.press k.move fx).Group j := by
  obtain ⟨i, n, rfl, hn⟩ := hfx.group
  by_cases hj : j = i
  · rw [hj]
    exact (press_group k hn (h i)).1
  · exact (press_group_other k hn hj).1.mpr (h j)

/-- The numbers stay in range as long as the third digit does not matter. -/
theorem press_octets_iff (hfx : Place fx) (h : ∀ i, t.Group i) (ht : t.Octets) :
    (t.press k.move fx).Octets ↔ ¬Overflows k fx t := by
  have hnum := (octets_iff h).mp ht
  rw [octets_iff (press_groups k hfx h)]
  obtain ⟨i, n, rfl, hn⟩ := hfx.group
  rw [overflows_iff hn, ← (press_group k hn (h i)).2 (hnum i)]
  refine ⟨fun hall => hall i, fun hle j => ?_⟩
  by_cases hj : j = i
  · rw [hj]
    exact hle
  · rw [(press_group_other k hn hj).2]
    exact hnum j

end Press

end AddrText

namespace Host

open AddrText

/-! ### A key in an editor -/

/-- An editor is open, with one of its digits marked. -/
structure InEditor (f : AddrField) (h : Host) : Prop where
  screen : h.panel.lcd.currentScreen = f.screen
  place : Place h.panel.lcd.rowFxPos
  groups : ∀ i, (h.text f).Group i

/-- What a key makes of the text. -/
def pressText (k : Key) (fx : ℤ) (t : AddrText) : AddrText :=
  match k with
  | .up => t.press Panel.upDigit fx
  | .down => t.press Panel.downDigit fx
  | _ => t

theorem place_addrLeft {fx : ℤ} (h : Place fx) : Place (addrLeft fx) := by
  obtain ⟨h0, h1, h2⟩ := h
  simp only [addrLeft, Place]
  split_ifs <;> omega

theorem place_addrRight {fx : ℤ} (h : Place fx) : Place (addrRight fx) := by
  obtain ⟨h0, h1, h2⟩ := h
  simp only [addrRight, Place]
  split_ifs <;> omega

variable {f : AddrField} {h : Host}

theorem text_setText (t : AddrText) : (h.setText t f).text f = t := by cases f <;> rfl

theorem text_onPanel (op : Panel → Panel) : (h.onPanel op).text f = h.text f := by cases f <;> rfl

theorem addrEditor_text (k : Key) (s : Lcd) :
    (h.addrEditor f k s).text f = pressText k s.rowFxPos (h.text f) := by
  cases k with
  | up => exact text_setText _
  | down => exact text_setText _
  | enter => cases f <;> rfl
  | _ => rfl

theorem addrEditor_lcd (k : Key) (s : Lcd) : (h.addrEditor f k s).panel.lcd = h.panel.lcd := by
  cases k <;> cases f <;> rfl

theorem openAddr_lcd (row : UInt8) : (h.openAddr row).panel.lcd = h.panel.lcd := by
  simp only [openAddr]
  split_ifs <;> rfl

/-- The addresses and the panel in one turn. -/
theorem turn_eq (hrun : h.panel.running) (e : Env) (pins : Fin 2 → Bool) (k : Key) : h.turn e pins k =
    (h.addrEffect k (idleTurn e k h.panel.lcd)).onPanel fun p =>
      { (p.zoneEffect k (idleTurn e k h.panel.lcd)).otherEffect e pins k (idleTurn e k h.panel.lcd) with
        lcd := keyPress e k (idleTurn e k h.panel.lcd) } := by
  have hlcd : (h.addrEffect k (idleTurn e k h.panel.lcd)).panel.lcd = h.panel.lcd := by
    unfold addrEffect
    split
    · exact openAddr_lcd _
    · exact openAddr_lcd _
    · exact addrEditor_lcd _ _
    · exact addrEditor_lcd _ _
    · exact addrEditor_lcd _ _
    · rfl
  rw [Host.turn, if_pos hrun, onPanel, onPanel, Panel.turn, hlcd]

/-- On its screen an editor is all there is. -/
theorem addrEffect_editor (k : Key) {s : Lcd} (hs : s.currentScreen = f.screen) :
    h.addrEffect k s = h.addrEditor f k s := by
  cases f <;> simp only [addrEffect, hs, AddrField.screen]

/-- The cursor goes over the digits. -/
theorem keyPress_digits (e : Env) {k : Key} (hk : k ≠ .esc) {s : Lcd} (hs : s.currentScreen = f.screen)
    (hplace : Place s.rowFxPos) :
    (keyPress e k s).currentScreen = f.screen ∧ Place (keyPress e k s).rowFxPos := by
  have hpress : keyPress e k s =
      (Handler.digits { target := .setEthParaScreen } addrLeft addrRight).press k s := by
    cases f <;> simp only [keyPress, hs, AddrField.screen, handler]
  rw [hpress]
  cases k with
  | esc => exact absurd rfl hk
  | enter =>
    have hfirst : Place 1 := by norm_num [Place]
    exact ⟨hs, hfirst⟩
  | left => exact ⟨hs, place_addrLeft hplace⟩
  | right => exact ⟨hs, place_addrRight hplace⟩
  | up | down | none => exact ⟨hs, hplace⟩

theorem InEditor.turn (hin : h.InEditor f) (hrun : h.panel.running) (e : Env)
    (pins : Fin 2 → Bool) {k : Key}
    (hk : k ≠ .esc) : (h.turn e pins k).InEditor f ∧
      (h.turn e pins k).text f = pressText k h.panel.lcd.rowFxPos (h.text f) := by
  obtain ⟨hscreen, hplace, hgroups⟩ := hin
  have hne : h.panel.lcd.currentScreen ≠ .runScreen := by
    rw [hscreen]
    cases f <;> decide
  obtain ⟨n, hidle⟩ := idleTurn_counts e k hne
  have hs : (idleTurn e k h.panel.lcd).currentScreen = f.screen := by
    rw [hidle]
    exact hscreen
  have htext : (h.turn e pins k).text f = pressText k h.panel.lcd.rowFxPos (h.text f) := by
    rw [Host.turn, if_pos hrun, text_onPanel, addrEffect_editor k hs, addrEditor_text, hidle]
  have hlcd : (h.turn e pins k).panel.lcd = keyPress e k (idleTurn e k h.panel.lcd) := by
    rw [turn_eq hrun]
    rfl
  obtain ⟨hscreen', hplace'⟩ := keyPress_digits e hk hs (by rw [hidle]; exact hplace)
  refine ⟨⟨hlcd ▸ hscreen', hlcd ▸ hplace', fun i => ?_⟩, htext⟩
  rw [htext]
  cases k with
  | up => exact press_groups .up hplace hgroups i
  | down => exact press_groups .down hplace hgroups i
  | _ => exact hgroups i

/-! ### Runs -/

/-- A turn in an editor, with any key but ESC. -/
abbrev EditTurn := Env × (Fin 2 → Bool) × { k : Key // k ≠ .esc }

def editTurn (h : Host) (q : EditTurn) : Host := h.turn q.1 q.2.1 q.2.2

def Octets (f : AddrField) (h : Host) : Prop := (h.text f).Octets

/-- The key takes no number past 255. -/
def Keeps (f : AddrField) (h : Host) (q : EditTurn) : Prop :=
  h.panel.running → ∀ m : UpDown, q.2.2 = m.key → ¬Overflows m h.panel.lcd.rowFxPos (h.text f)

theorem InEditor.editTurn (hin : h.InEditor f) (q : EditTurn) : (h.editTurn q).InEditor f := by
  by_cases hrun : h.panel.running
  · exact (hin.turn hrun q.1 q.2.1 q.2.2.2).1
  · have hsame : h.editTurn q = h := if_neg hrun
    rwa [hsame]

/-- One key. -/
theorem InEditor.octets_iff (hin : h.InEditor f) (hoct : h.Octets f) (q : EditTurn) :
    (h.editTurn q).Octets f ↔ h.Keeps f q := by
  obtain ⟨e, pins, k, hk⟩ := q
  by_cases hrun : h.panel.running
  · have htext := (hin.turn hrun e pins hk).2
    have hother (hmove : ∀ m : UpDown, k ≠ m.key)
      (hpress : (h.editTurn (e, pins, ⟨k, hk⟩)).text f = h.text f) :
        (h.editTurn (e, pins, ⟨k, hk⟩)).Octets f ↔ h.Keeps f (e, pins, ⟨k, hk⟩) := by
      rw [Octets, hpress]
      exact iff_of_true hoct fun _ m hm => absurd hm (hmove m)
    have hmoved (m : UpDown) (hm : k = m.key)
        (hpress : (h.editTurn (e, pins, ⟨k, hk⟩)).text f =
        (h.text f).press m.move h.panel.lcd.rowFxPos) :
        (h.editTurn (e, pins, ⟨k, hk⟩)).Octets f ↔ h.Keeps f (e, pins, ⟨k, hk⟩) := by
      rw [Octets, hpress, press_octets_iff m hin.place hin.groups hoct]
      refine ⟨fun hover _ m' hm' => ?_, fun hkeep => hkeep hrun m hm⟩
      rwa [← UpDown.key_inj (hm.symm.trans hm')]
    cases k with
    | up => exact hmoved .up rfl htext
    | down => exact hmoved .down rfl htext
    | esc => exact absurd rfl hk
    | _ => exact hother (fun m hm => by cases m <;> exact absurd hm (by decide)) htext
  · have hsame : h.editTurn (e, pins, ⟨k, hk⟩) = h := if_neg hrun
    rw [hsame]
    exact iff_of_true hoct fun hr => absurd hr hrun

end Host

/-- The row of an address in the menu of the network parameters. -/
def AddrField.row : AddrField → UInt8
  | .ip => 2
  | .netmask => 3
  | .gateway => 4

/-- A device before ENTER opens the editor of an address. -/
structure AddrMenu where
  host : Host
  field : AddrField
  enter : Env × (Fin 2 → Bool)
  running : host.panel.running
  screen : host.panel.lcd.currentScreen = .setEthParaScreen
  row : host.panel.lcd.rowPoint = field.row

theorem Host.addrEffect_opens {h : Host} {f : AddrField} {s : Lcd}
    (hs : s.currentScreen = .setEthParaScreen)
    (hrow : s.rowPoint = f.row) : h.addrEffect .enter s = h.setText (AddrText.ofAddr (h.addr f)) f := by
  cases f <;> simp only [addrEffect, hs, hrow, AddrField.row, openAddr] <;> rfl

namespace AddrMenu

open AddrText Host

def opened (x : AddrMenu) : Host := x.host.turn x.enter.1 x.enter.2 .enter

/-- The editor is opened with the digits of the address. -/
theorem opened_text (x : AddrMenu) :
    x.opened.InEditor x.field ∧ x.opened.text x.field = ofAddr (x.host.addr x.field) := by
  obtain ⟨h, f, ⟨e, pins⟩, hrun, hscreen, hrow⟩ := x
  have hopen : h.addrEffect .enter { h.panel.lcd with noKeyNum := 0 } =
    h.setText (ofAddr (h.addr f)) f :=
    addrEffect_opens hscreen hrow
  have htext : (h.turn e pins .enter).text f = ofAddr (h.addr f) := by
    rw [Host.turn, if_pos hrun, text_onPanel, Panel.idleTurn_enter, hopen, text_setText]
  have hlcd : (h.turn e pins .enter).panel.lcd =
    keyPress e .enter { h.panel.lcd with noKeyNum := 0 } := by
    rw [turn_eq hrun, Panel.idleTurn_enter]
    rfl
  have hkey : (keyPress e .enter { h.panel.lcd with noKeyNum := 0 }).currentScreen = f.screen ∧
      (keyPress e .enter { h.panel.lcd with noKeyNum := 0 }).rowFxPos = 1 := by
    cases f <;> simp only [keyPress, hscreen, handler, Handler.press, hrow, AddrField.row] <;>
      exact ⟨rfl, rfl⟩
  refine ⟨⟨hlcd ▸ hkey.1, ?_, fun i => ?_⟩, htext⟩
  · change Place (h.turn e pins .enter).panel.lcd.rowFxPos
    rw [hlcd, hkey.2]
    norm_num [Place]
  · change ((h.turn e pins .enter).text f).Group i
    rw [htext]
    exact (ofAddr_group _ i).1

theorem opened_octets (x : AddrMenu) : x.opened.Octets x.field := by
  obtain ⟨hin, htext⟩ := x.opened_text
  refine (AddrText.octets_iff hin.groups).mpr fun i => ?_
  have hb := (x.host.addr x.field i).toNat_lt
  rw [htext, (ofAddr_group _ i).2]
  omega

/-- An editor is opened with four octets, and shows four octets exactly as long as UP and DOWN leave
    alone a digit whose change takes its number past 255. -/
theorem run_octets_iff (x : AddrMenu) (ks : List EditTurn) :
    x.opened.Octets x.field ∧
      ((∀ q ∈ Run.steps editTurn x.opened ks, (q.1.editTurn q.2).Octets x.field) ↔
        ∀ q ∈ Run.steps editTurn x.opened ks, q.1.Keeps x.field q.2) := by
  have hin : ∀ q ∈ Run.steps editTurn x.opened ks, q.1.InEditor x.field :=
    Run.steps_inv (InEditor x.field) (fun _ q hin => hin.editTurn q) ks _ x.opened_text.1
  have hiff : (∀ q ∈ Run.steps editTurn x.opened ks, (q.1.editTurn q.2).InEditor x.field ∧
        (q.1.editTurn q.2).Octets x.field) ↔
      ∀ q ∈ Run.steps editTurn x.opened ks, q.1.Keeps x.field q.2 :=
    Run.steps_iff (fun h : Host => h.InEditor x.field ∧ h.Octets x.field) (fun h q => h.Keeps x.field q)
      (fun _ q h => (and_iff_right (h.1.editTurn q)).trans (h.1.octets_iff h.2 q)) ks _
      ⟨x.opened_text.1, x.opened_octets⟩
  refine ⟨x.opened_octets, Iff.trans ⟨fun h q hq => ?_, fun h q hq => (h q hq).2⟩ hiff⟩
  exact ⟨(hin q hq).editTurn q.2, h q hq⟩

/-! ### A run from the first start -/

/-- The super user before the editor of the address 192.168.0.30. -/
def atIpAddr : Host :=
  (Panel.toSettings ++ [Key.enter, .down, .enter, .down]).foldl
    (fun h k => h.turn Panel.quiet (fun _ => false) k) firstStart

theorem atIpAddr_eq : atIpAddr.panel.running = true ∧
    atIpAddr.panel.lcd.currentScreen = .setEthParaScreen ∧ atIpAddr.panel.lcd.rowPoint = 2 := by
  decide +kernel

def ipMenu : AddrMenu where
  host := atIpAddr
  field := .ip
  enter := (Panel.quiet, fun _ => false)
  running := atIpAddr_eq.1
  screen := atIpAddr_eq.2.1
  row := atIpAddr_eq.2.2

def edit (k : { k : Key // k ≠ .esc }) : EditTurn := (Panel.quiet, fun _ => false, k)

def up : EditTurn := edit ⟨.up, Key.noConfusion⟩

/-- From 192 over 152 to 156, and back to the first digit. -/
def to156 : List EditTurn :=
  let right := edit ⟨.right, Key.noConfusion⟩
  let left := edit ⟨.left, Key.noConfusion⟩
  right :: List.replicate 4 (edit ⟨.down, Key.noConfusion⟩) ++ right :: List.replicate 4 up ++
    [left, left]

def at156 : Host := to156.foldl editTurn ipMenu.opened

theorem at156_number : ((at156.editTurn up).text .ip).number 0 = 256 := by
  decide +kernel

/-- UP on the first digit of 156 shows 256. -/
theorem not_run_octets : ¬ ∀ (x : AddrMenu) (ks : List EditTurn),
    ∀ q ∈ Run.steps editTurn x.opened ks, (q.1.editTurn q.2).Octets x.field := by
  intro h
  have hlast : (at156, up) ∈ Run.steps editTurn ipMenu.opened (to156 ++ [up]) := by
    rw [Run.steps_append]
    exact List.mem_append_right _ (List.mem_singleton_self _)
  have hoct := h ipMenu (to156 ++ [up]) (at156, up) hlast
  simp only [show ipMenu.field = .ip from rfl] at hoct
  obtain ⟨hle, -⟩ := hoct 0
  rw [at156_number] at hle
  exact absurd hle (by decide)

end AddrMenu

end VectorFence
