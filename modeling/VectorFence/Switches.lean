import VectorFence.Lcd.Commit
import VectorFence.Web.Ssi

/-! The types of the two switch inputs. A number for both of them is made and taken apart in three
    places:

        tag 14     (SW_Type[1] << 8) | SW_Type[0], printed      variables ──▶ text
        SWITCH     setSWValue((u16)atoi(…)), its two bytes      text ──▶ variables, EEPROM
        editor     setSWValue of the same number on ENTER       variables ──▶ variables, EEPROM

    `SW_Type` is signed, so that a negative `SW_Type[0]` covers `SW_Type[1]` in the number. -/

namespace VectorFence

open CStr Eeprom

namespace Station

variable (pins : Fin 2 → Bool)

/-- `setSWValue(swVal)`. -/
def setSWVal (swVal : UInt16) (st : Station) : Station :=
  st.setSWValue pins swVal.toUInt8.toInt8 (swVal >>> 8).toUInt8.toInt8

/-- `Switch_Handler`. -/
def switchHandler (params : CgiParams) (st : Station) : Station :=
  if Web.findCGIParameter "SWITCH" params then
    params.foldl (fun st kv => if kv.1 = lit "SWITCH" then st.setSWVal pins (u16 kv.2) else st) st
  else st

/-- The part of `ALARM_Init` for the switch types, which are zero before it. -/
def initSwType (st : Station) : Station :=
  let st := { st with swType := ![0, 0] }
  let st :=
    if at24cxxReadOneByte st.dev.mem swValAddr = 0xFF then
      st.onDev fun d => { d with
        mem := at24cxxWrite d.mem swValAddr [(st.swType 0).toUInt8, (st.swType 1).toUInt8] }
    else
      { st with
        swType := ![(at24cxxReadOneByte st.dev.mem swValAddr).toInt8,
          (at24cxxReadOneByte st.dev.mem (swValAddr + 1)).toInt8] }
  updateSWAlarmState pins 0 (updateSWAlarmState pins 1 st)

end Station

/-- What the switch types are changed by: a request `/switch.cgi`, a key, a restart. -/
inductive SwitchEvent where
  | web (pins : Fin 2 → Bool) (params : CgiParams)
  | key (e : Env) (pins : Fin 2 → Bool) (k : Key)
  | reboot (pins : Fin 2 → Bool)

namespace Panel

open Lcd

/-- One turn of the loop of `main_task`, followed for the switch types only. -/
def switchTurn (e : Env) (pins : Fin 2 → Bool) (k : Key) (p : Panel) : Panel :=
  let s := idleTurn e k p.lcd
  let p' := if s.currentScreen = .setExtDeviceTypeScreen then p.swTypeEditor pins k s else p
  { p' with lcd := keyPress e k s }

/-- A restart, followed for the switch types only. -/
def reboot (pins : Fin 2 → Bool) (p : Panel) : Panel where
  lcd := .powerOn
  temps := .powerOn
  station := p.station.initSwType pins
  running := true

def switchStep (p : Panel) : SwitchEvent → Panel
  | .web pins params => { p with station := p.station.switchHandler pins params }
  | .key e pins k => p.switchTurn e pins k
  | .reboot pins => p.reboot pins

end Panel

/-! ### The number for both types -/

namespace Station

/-- Taken apart again, the number gives the types it was made of. -/
def Packs (st : Station) : Prop := 0 ≤ st.swType 0 ∨ st.swType 1 = -1

instance (st : Station) : Decidable st.Packs := by unfold Packs; infer_instance

theorem neg_iff_msb (b : Int8) : b < 0 ↔ b.toBitVec.msb = true := by
  rw [Int8.lt_iff_toInt_lt, Int8.toInt_zero, BitVec.msb_eq_toInt, decide_eq_true_eq]
  rfl

/-- The low byte of the number. -/
theorem low_pack (a b : Int8) :
    (a.toInt32 <<< 8 ||| b.toInt32).toUInt32.toUInt16.toUInt8.toInt8 = b := by
  refine Int8.toBitVec_inj.mp (BitVec.eq_of_getLsbD_eq fun i hi => ?_)
  have h32 : i < 32 := by omega
  simp [hi, h32, BitVec.getElem_signExtend]

/-- The high byte; the sign of the low one gets into it. -/
theorem high_pack (a b : Int8) :
    ((a.toInt32 <<< 8 ||| b.toInt32).toUInt32.toUInt16 >>> 8).toUInt8.toInt8 = if b < 0 then
    -1 else a := by
  refine Int8.toBitVec_inj.mp (BitVec.eq_of_getLsbD_eq fun i hi => ?_)
  have hi' : 8 + i < 16 := by omega
  have h16 : i < 16 := by omega
  have h32 : i < 32 := by omega
  have h32' : 8 + i < 32 := by omega
  by_cases hb : b < 0
  · have hmsb := (neg_iff_msb b).mp hb
    have hones : ∀ (j : ℕ) (hj : j < 8), (255#8)[j] = true := by decide
    rw [if_pos hb]
    simp [hi, hi', h32', hmsb, hones, BitVec.getLsbD_signExtend]
  · have hmsb : b.toBitVec.msb = false := by simpa using (neg_iff_msb b).not.mp hb
    rw [if_neg hb]
    simp [hi, hi', h16, h32, hmsb, BitVec.getElem_signExtend, BitVec.getLsbD_signExtend]

theorem ofInt_toInt (x : Int32) : UInt16.ofInt x.toInt = x.toUInt32.toUInt16 := by
  have hcond : x.toInt = (x.toUInt32.toNat : ℤ) ∨ x.toInt = (x.toUInt32.toNat : ℤ) - 2 ^ 32 := by
    have h := BitVec.toInt_eq_toNat_cond x.toBitVec
    change x.toInt = if 2 * x.toUInt32.toNat < 2 ^ 32 then (x.toUInt32.toNat : ℤ)
      else (x.toUInt32.toNat : ℤ) - (2 ^ 32 : ℕ) at h
    split_ifs at h
    · exact Or.inl h
    · exact Or.inr h
  apply UInt16.toNat_inj.mp
  rw [UInt16.ofInt, UInt16.toNat_ofNat', UInt32.toNat_toUInt16]
  omega

/-- What the page shows is read back as the number. -/
theorem u16_packSwType (st : Station) : u16 (int (Web.packSwType st)) =
    ((st.swType 1).toInt32 <<< 8 ||| (st.swType 0).toInt32).toUInt32.toUInt16 := by
  rw [u16, Web.packSwType, atoi_int (Int32.le_toInt _) (Int32.toInt_lt _), ofInt_toInt]

/-- The number that the page shows is sent back. -/
def RoundTrip (st : Station) : Prop :=
  ∀ pins, (st.switchHandler pins [(lit "SWITCH", int (Web.packSwType st))]).swType = st.swType

/-- The last value counts. -/
theorem switchHandler_swType (pins : Fin 2 → Bool) (params : CgiParams) (st : Station) :
    (st.switchHandler pins params).swType = ((Web.lastValue "SWITCH" params).elim st.swType fun v =>
      ![(u16 v).toUInt8.toInt8, (u16 v >>> 8).toUInt8.toInt8]) := by
  let types (v : CStr) : Fin 2 → Int8 := ![(u16 v).toUInt8.toInt8, (u16 v >>> 8).toUInt8.toInt8]
  have hput (st : Station) (kv : CStr × CStr) :
      (if kv.1 = lit "SWITCH" then st.setSWVal pins (u16 kv.2) else st).swType =
        if kv.1 = lit "SWITCH" then types kv.2 else st.swType := by
    split_ifs <;> rfl
  rw [switchHandler]
  split_ifs with hfind
  · refine (Web.foldl_lastValue "SWITCH" Station.swType types hput params st).trans ?_
    cases Web.lastValue "SWITCH" params <;> rfl
  · have hnone : Web.lastValue "SWITCH" params = none := by
      rw [Web.lastValue, Option.map_eq_none_iff, List.find?_eq_none]
      intro kv hkv hname
      exact hfind (List.any_eq_true.mpr ⟨kv, List.mem_reverse.mp hkv, hname⟩)
    rw [hnone]
    rfl

theorem roundTrip_iff (st : Station) : st.RoundTrip ↔ st.Packs := by
  have hback (pins : Fin 2 → Bool) :
      (st.switchHandler pins [(lit "SWITCH", int (Web.packSwType st))]).swType =
        ![st.swType 0, if st.swType 0 < 0 then -1 else st.swType 1] := by
    have hlast : Web.lastValue "SWITCH" [(lit "SWITCH", int (Web.packSwType st))] =
        some (int (Web.packSwType st)) := by
      simp [Web.lastValue]
    rw [switchHandler_swType, hlast, Option.elim_some, u16_packSwType, low_pack, high_pack]
  simp only [RoundTrip, hback, Packs, forall_const]
  constructor
  · intro h
    have h1 := congrFun h 1
    by_cases hneg : st.swType 0 < 0
    · right
      simpa [hneg] using h1.symm
    · exact Or.inl (Int8.not_lt.mp hneg)
  · intro h
    funext i
    rcases zone_cases i with rfl | rfl
    · rfl
    · rcases h with h | h
      · simp [Int8.not_lt.mpr h]
      · simp [h]

end Station

namespace Panel

open Lcd

variable {p : Panel}

/-! ### The editor -/

/-- The editor is open. -/
def OnEdit (p : Panel) : Prop :=
  p.lcd.currentScreen = .setExtDeviceTypeScreen ∧ p.lcd.flagPageState = .modifyState

/-- The type of a switch is being edited. -/
def InSwitchEdit (p : Panel) (i : Fin 2) : Prop := p.OnEdit ∧ p.lcd.rowPoint.toNat = i + 1

/-- A key in the editor of one switch leaves the other one alone. -/
def KeepsOther (p : Panel) : SwitchEvent → Prop
  | .key e pins k => ∀ i j, p.InSwitchEdit i → j ≠ i →
      (p.switchTurn e pins k).station.swType j = p.station.swType j ∧
        (p.switchTurn e pins k).mem.stored (.swType j) = p.mem.stored (.swType j)
  | _ => True

/-- On the screen of the editor this is the whole turn. -/
theorem switchTurn_eq (h : p.lcd.currentScreen = .setExtDeviceTypeScreen) (e : Env)
    (pins : Fin 2 → Bool)
    (k : Key) : p.switchTurn e pins k = p.turn e pins k := by
  obtain ⟨n, hidle⟩ := idleTurn_counts e k (s := p.lcd) (by rw [h]; decide)
  rw [switchTurn, turn, hidle]
  simp only [h, if_true, zoneEffect, otherEffect]

/-- Elsewhere no key changes a type. -/
theorem otherEffect_swType {s : Lcd} (h : s.currentScreen ≠ .setExtDeviceTypeScreen) (e : Env)
    (pins : Fin 2 → Bool) (k : Key) : (p.otherEffect e pins k s).station.swType = p.station.swType := by
  have hsilence : (p.silence k).station.swType = p.station.swType := by
    cases k <;> rfl
  have hrows (ops : List (Dev → Dev)) (row : UInt8) :
      (p.enterRows ops row).station.swType = p.station.swType := by
    rw [enterRows]
    cases choice ops row <;> rfl
  unfold otherEffect
  split
  · exact hsilence
  · split_ifs
    · rfl
    · exact hsilence
  · rw [enterSetMenu]
    split_ifs <;> rfl
  · unfold armingEditor
    split <;> rfl
  · unfold thresholdEditor
    split <;> first | rfl | (rw [openThreshold]; split_ifs <;> rfl)
  · exact hrows ..
  · exact hrows ..
  · exact hrows ..
  · exact hrows ..
  · exact hrows ..
  · exact absurd ‹_› h
  · unfold fullScaleEditor
    split <;> rfl
  · unfold calibrateTimeEditor
    split <;> rfl
  · rfl
  · rfl
  · rfl
  · rfl

theorem zoneEffect_swType (k : Key) (s : Lcd) :
    (p.zoneEffect k s).station.swType = p.station.swType := by
  have heditor (f : Zone) : (p.zoneEditor f k s).station.swType = p.station.swType := by
    unfold zoneEditor
    split
    · rfl
    · rw [openZonePara]
      split_ifs <;> rfl
    · rfl
    · split_ifs <;> rfl
    · split_ifs <;> rfl
    · rfl
  unfold zoneEffect
  split
  · split_ifs <;> rfl
  · rfl
  · rfl
  · exact heditor 0
  · exact heditor 1
  · rfl

/-- What `switchTurn` leaves out does not change the types. -/
theorem turn_swType (e : Env) (pins : Fin 2 → Bool) (k : Key) :
    (p.turn e pins k).station.swType = (p.switchTurn e pins k).station.swType := by
  by_cases hs : p.lcd.currentScreen = .setExtDeviceTypeScreen
  · rw [switchTurn_eq hs]
  · have hs' := (idleTurn_screen e k p.lcd (by decide) (by decide)).not.mpr hs
    simp only [switchTurn, if_neg hs', turn]
    rw [otherEffect_swType hs', zoneEffect_swType]

/-- UP or DOWN on a type. -/
def nextType (k : Key) (v : Int8) : Int8 :=
  match k with
  | .up => if v + 1 > 8 then 0 else v + 1
  | .down => if v - 1 < 0 then 8 else v - 1
  | _ => v

theorem switchTurn_onEdit (h : p.OnEdit) (e : Env) (pins : Fin 2 → Bool) (k : Key) :
    ∃ n, (p.switchTurn e pins k).station =
    (p.swTypeEditor pins k { p.lcd with noKeyNum := n }).station := by
  obtain ⟨n, hidle⟩ := idleTurn_counts e k (s := p.lcd) (by rw [h.1]; decide)
  refine ⟨n, ?_⟩
  rw [switchTurn, hidle]
  simp only [h.1, if_true]

theorem switchTurn_enter (h : p.OnEdit) (e : Env) (pins : Fin 2 → Bool) :
    (p.switchTurn e pins .enter).station = (p.acceptSwType pins).station := by
  obtain ⟨n, hturn⟩ := switchTurn_onEdit h e pins .enter
  rw [hturn]
  simp only [swTypeEditor, h.2]

/-- Nothing but the variable in the row is changed. -/
theorem switchTurn_move (h : p.OnEdit) (e : Env) (pins : Fin 2 → Bool) {k : Key} (hk : k ≠ .enter) :
    (p.switchTurn e pins k).station = (p.stepSwType (nextType k) p.lcd.rowPoint).station := by
  obtain ⟨n, hturn⟩ := switchTurn_onEdit h e pins k
  have hsame : (p.stepSwType (fun v => v) p.lcd.rowPoint).station = p.station := by
    rw [stepSwType]
    split_ifs
    · simp only [setSwType, Function.update_eq_self]
    · simp only [setSwType, Function.update_eq_self]
    · rfl
  rw [hturn]
  cases k with
  | enter => exact absurd rfl hk
  | up | down =>
    simp only [swTypeEditor, h.2]
    rfl
  | _ =>
    simp only [swTypeEditor, h.2]
    exact hsame.symm

theorem switchTurn_same (h : ¬p.OnEdit) (e : Env) (pins : Fin 2 → Bool) (k : Key) :
    (p.switchTurn e pins k).station = p.station := by
  have hpage : (idleTurn e k p.lcd).flagPageState = p.lcd.flagPageState := by
    rw [idleTurn]
    split_ifs <;> rfl
  by_cases hs : (idleTurn e k p.lcd).currentScreen = .setExtDeviceTypeScreen
  · have hscreen := (idleTurn_screen e k p.lcd (by decide) (by decide)).mp hs
    have hnormal : p.lcd.flagPageState = .normalState := by
      cases hp : p.lcd.flagPageState with
      | normalState => rfl
      | modifyState => exact absurd ⟨hscreen, hp⟩ h
    simp only [switchTurn, hs, if_true, swTypeEditor, hpage, hnormal]
  · simp only [switchTurn, if_neg hs]

/-! ### One event -/

/-- After the event the number still tells both types. -/
def KeepsPacked (p : Panel) : SwitchEvent → Prop
  | .web _ params => ∀ v ∈ Web.lastValue "SWITCH" params,
      0 ≤ (u16 v).toUInt8.toInt8 ∨ (u16 v >>> 8).toUInt8.toInt8 = -1
  | .key _ _ k =>
      (p.InSwitchEdit 0 → k = .up → p.station.swType 0 = 127 → p.station.swType 1 = -1) ∧
      (p.InSwitchEdit 1 → k = .up ∨ k = .down → 0 ≤ p.station.swType 0)
  | .reboot _ =>
      p.mem.stored (.swType 0) = 255 ∨ p.mem.stored (.swType 0) < 128 ∨ p.mem.stored (.swType 1) = 255

/-- ENTER finds the other type stored. -/
def OtherStored (p : Panel) : SwitchEvent → Prop
  | .key _ _ k => k = .enter → ∀ i j, p.InSwitchEdit i → j ≠ i →
      p.mem.stored (.swType j) = p.station.value (.swType j)
  | _ => True

theorem toInt8_nonneg_iff (b : UInt8) : 0 ≤ b.toInt8 ↔ b.toNat < 128 := by
  rw [← Int8.not_lt, Station.neg_iff_msb, BitVec.msb_eq_decide]
  change ¬decide (2 ^ 7 ≤ b.toNat) = true ↔ _
  rw [decide_eq_true_eq]
  omega

theorem toInt8_eq_neg_one_iff (b : UInt8) : b.toInt8 = -1 ↔ b.toNat = 255 := by
  have hone : (-1 : Int8) = (255 : UInt8).toInt8 := by decide
  rw [hone]
  constructor
  · intro h
    exact congrArg (fun v : Int8 => v.toUInt8.toNat) h
  · intro h
    have hb : b.toNat = (255 : UInt8).toNat := h
    rw [UInt8.toNat_inj.mp hb]

/-- UP on a type that is not negative; 127 is followed by -128. -/
theorem nextType_up_nonneg {v : Int8} (hv : 0 ≤ v) : 0 ≤ nextType .up v ↔ v ≠ 127 := by
  constructor
  · rintro h rfl
    exact absurd h (by decide)
  · intro hne
    have hne' : v.toInt ≠ 127 := fun h => hne (Int8.toInt_inj.mp h)
    rw [Int8.le_iff_toInt_le, Int8.toInt_zero] at hv
    have hlt := Int8.toInt_lt v
    have hsucc : (v + 1).toInt = v.toInt + 1 := by
      rw [Int8.toInt_add, Int8.toInt_one, Int.bmod_eq_of_le] <;> omega
    simp only [nextType]
    split_ifs with h8
    · decide
    · rw [Int8.le_iff_toInt_le, Int8.toInt_zero, hsucc]
      omega

theorem nextType_down_nonneg (v : Int8) : 0 ≤ nextType .down v := by
  simp only [nextType]
  split_ifs with h0
  · decide
  · exact Int8.not_lt.mp h0

/-- A type of all ones is left by UP and DOWN. -/
theorem nextType_neg_one : nextType .up (-1) ≠ -1 ∧ nextType .down (-1) ≠ -1 := by decide

theorem inSwitchEdit_iff (h : p.OnEdit) (i : Fin 2) : p.InSwitchEdit i ↔ p.lcd.rowPoint.toNat = i + 1 :=
  and_iff_right h

/-- Accepting keeps types that the number tells. -/
theorem acceptSwType_swType (h : p.station.Packs) (pins : Fin 2 → Bool) :
    (p.acceptSwType pins).station.swType = p.station.swType := by
  have hswType : (p.acceptSwType pins).station.swType =
      ![p.station.swType 0, if p.station.swType 0 < 0 then -1 else p.station.swType 1] := rfl
  rw [hswType]
  funext i
  rcases zone_cases i with rfl | rfl
  · rfl
  · rcases h with h | h
    · simp [Int8.not_lt.mpr h]
    · simp [h]

/-- The types after a key in a row. -/
theorem stepSwType_swType (next : Int8 → Int8) (row : UInt8) (p : Panel) :
    (p.stepSwType next row).station.swType =
      if row.toNat = 1 then ![next (p.station.swType 0), p.station.swType 1]
      else if row.toNat = 2 then ![p.station.swType 0, next (p.station.swType 1)]
      else p.station.swType := by
  have hrow (n : UInt8) : row = n ↔ row.toNat = n.toNat := UInt8.toNat_inj.symm
  simp only [stepSwType, hrow, UInt8.reduceToNat]
  split_ifs
  · funext i
    rcases zone_cases i with rfl | rfl <;> rfl
  · funext i
    rcases zone_cases i with rfl | rfl <;> rfl
  · rfl

/-- UP and DOWN in the row of the first switch. -/
theorem packs_first {a b : Int8} (h : 0 ≤ a ∨ b = -1) (k : Key) :
    (0 ≤ nextType k a ∨ b = -1) ↔ (k = .up → a = 127 → b = -1) := by
  by_cases hb : b = -1
  · exact iff_of_true (Or.inr hb) fun _ _ => hb
  · have ha := h.resolve_right hb
    rw [or_iff_left hb]
    cases k with
    | up =>
      rw [nextType_up_nonneg ha]
      simp [hb]
    | down => exact iff_of_true (nextType_down_nonneg a) fun hk => absurd hk (by decide)
    | _ => exact iff_of_true ha fun hk => absurd hk (by decide)

/-- In the row of the second one. -/
theorem packs_second {a b : Int8} (h : 0 ≤ a ∨ b = -1) (k : Key) :
    (0 ≤ a ∨ nextType k b = -1) ↔ (k = .up ∨ k = .down → 0 ≤ a) := by
  by_cases ha : 0 ≤ a
  · exact iff_of_true (Or.inl ha) fun _ => ha
  · have hb := h.resolve_left ha
    rw [or_iff_right ha, hb]
    cases k with
    | up => simp [ha, nextType_neg_one]
    | down => simp [ha, nextType_neg_one]
    | _ => simp [nextType]

theorem stored_swType (i : Fin 2) :
    p.mem.stored (.swType i) = (at24cxxReadOneByte p.station.dev.mem (swValAddr + i)).toNat := rfl

theorem reboot_packs_iff (pins : Fin 2 → Bool) :
    (p.reboot pins).station.Packs ↔ p.KeepsPacked (.reboot pins) := by
  have hfirst := p.stored_swType 0
  have hsecond := p.stored_swType 1
  simp only [Fin.val_zero, Fin.val_one, Nat.add_zero] at hfirst hsecond
  rw [KeepsPacked, hfirst, hsecond]
  change (p.station.initSwType pins).Packs ↔ _
  have hff : at24cxxReadOneByte p.station.dev.mem swValAddr = 0xFF ↔
      (at24cxxReadOneByte p.station.dev.mem swValAddr).toNat = 255 := UInt8.toNat_inj.symm
  by_cases hnew : at24cxxReadOneByte p.station.dev.mem swValAddr = 0xFF
  · have hzero : (p.station.initSwType pins).swType = ![0, 0] := by
      simp only [Station.initSwType, if_pos hnew]
      rfl
    rw [Station.Packs, hzero]
    exact iff_of_true (Or.inl (by decide)) (Or.inl (hff.mp hnew))
  · have hread : (p.station.initSwType pins).swType =
        ![(at24cxxReadOneByte p.station.dev.mem swValAddr).toInt8,
          (at24cxxReadOneByte p.station.dev.mem (swValAddr + 1)).toInt8] := by
      simp only [Station.initSwType, if_neg hnew]
      rfl
    rw [Station.Packs, hread, or_iff_right (hff.not.mp hnew), ← toInt8_nonneg_iff,
      ← toInt8_eq_neg_one_iff]
    rfl

theorem switchStep_packs_iff (r : SwitchEvent) (h : p.station.Packs) :
    (p.switchStep r).station.Packs ↔ p.KeepsPacked r := by
  cases r with
  | web pins params =>
    change (p.station.switchHandler pins params).Packs ↔ _
    rw [Station.Packs, Station.switchHandler_swType, KeepsPacked]
    cases Web.lastValue "SWITCH" params with
    | none => exact iff_of_true h (by simp)
    | some v => simp
  | reboot pins => exact reboot_packs_iff pins
  | key e pins k =>
    change (p.switchTurn e pins k).station.Packs ↔ _
    by_cases hedit : p.OnEdit
    · by_cases hk : k = .enter
      · subst hk
        rw [switchTurn_enter hedit, Station.Packs, acceptSwType_swType h]
        exact iff_of_true h ⟨fun _ hk => absurd hk (by decide), fun _ hk => absurd hk (by decide)⟩
      · rw [switchTurn_move hedit e pins hk, Station.Packs, stepSwType_swType, KeepsPacked,
          inSwitchEdit_iff hedit, inSwitchEdit_iff hedit]
        simp only [Fin.val_zero, Fin.val_one, Nat.zero_add, Nat.reduceAdd]
        split_ifs with h1 h2
        · simpa [h1] using packs_first h k
        · simpa [h2] using packs_second h k
        · simpa [h1, h2] using (show 0 ≤ p.station.swType 0 ∨ p.station.swType 1 = -1 from h)
    · rw [switchTurn_same hedit]
      exact iff_of_true h ⟨fun hin => absurd hin.1 hedit, fun hin => absurd hin.1 hedit⟩

/-- The other type and its copy, in one event. -/
theorem keepsOther_iff (r : SwitchEvent) (h : p.station.Packs) : p.KeepsOther r ↔ p.OtherStored r := by
  cases r with
  | web pins params => exact Iff.rfl
  | reboot pins => exact Iff.rfl
  | key e pins k =>
    rw [KeepsOther, OtherStored]
    by_cases hk : k = .enter
    · subst hk
      rw [imp_iff_right rfl]
      refine forall₂_congr fun i j => forall₂_congr fun hin _ => ?_
      have hvalue := acceptSwType_swType h pins
      have hstored : (p.acceptSwType pins).mem.stored (.swType j) =
        (p.acceptSwType pins).station.value (.swType j) :=
        setSWValue_inStep pins _ _ _ (.swType j) rfl
      have hsame : (p.acceptSwType pins).station.value (.swType j) = p.station.value (.swType j) := by
        simp only [Station.value, hvalue]
      rw [mem, switchTurn_enter hin.1, hvalue, and_iff_right rfl, ← mem, hstored, hsame]
      exact eq_comm
    · refine iff_of_true (fun i j hin hj => ?_) fun hk' => absurd hk' hk
      rw [mem, switchTurn_move hin.1 e pins hk]
      have hrow := hin.2
      have hmem : (p.stepSwType (nextType k) p.lcd.rowPoint).station.dev.mem = p.mem := by
        rw [stepSwType]
        split_ifs <;> rfl
      rw [hmem, stepSwType_swType, hrow]
      refine ⟨?_, rfl⟩
      rcases zone_cases i with rfl | rfl <;> rcases zone_cases j with rfl | rfl
      · exact absurd rfl hj
      · rfl
      · rfl
      · exact absurd rfl hj

theorem switchStep_consistent_iff (r : SwitchEvent) (h : p.station.RoundTrip) :
    ((p.switchStep r).station.RoundTrip ∧ p.KeepsOther r) ↔ p.KeepsPacked r ∧ p.OtherStored r := by
  have hpacks := (Station.roundTrip_iff _).mp h
  rw [Station.roundTrip_iff, switchStep_packs_iff r hpacks, keepsOther_iff r hpacks]

/-! ### Runs -/

/-- In a run the number goes on telling both types, and editing one of them leaves the other one
    alone, exactly as long as each event finds it so: a request and a restart give no negative
    `SW_Type[0]` but together with `SW_Type[1] = -1`, no key makes one, and ENTER finds the other
    type stored. -/
theorem run_consistent_iff (p : Panel) (rs : List SwitchEvent) (h : p.station.RoundTrip) :
    (∀ q ∈ Run.steps switchStep p rs, (q.1.switchStep q.2).station.RoundTrip ∧ q.1.KeepsOther q.2) ↔
      ∀ q ∈ Run.steps switchStep p rs, q.1.KeepsPacked q.2 ∧ q.1.OtherStored q.2 :=
  Run.steps_iff_of (fun p : Panel => p.station.RoundTrip)
    (fun p r => (p.switchStep r).station.RoundTrip ∧ p.KeepsOther r)
    (fun p r => p.KeepsPacked r ∧ p.OtherStored r) (fun _ _ _ hq => hq.1)
    (fun _ r hp => switchStep_consistent_iff r hp) rs p h

theorem firstStart_roundTrip : firstStart.station.RoundTrip :=
  (Station.roundTrip_iff _).mpr (Or.inl (by decide))

/-- A request with two bytes. -/
def setTypes (v : String) : SwitchEvent := .web (fun _ => false) [(lit "SWITCH", lit v)]

/-- The types 1 and 2. -/
theorem run_consistent_setTypes : firstStart.station.RoundTrip ∧
    ∀ q ∈ Run.steps switchStep firstStart [setTypes "513"],
      (q.1.switchStep q.2).station.RoundTrip ∧ q.1.KeepsOther q.2 := by
  refine ⟨firstStart_roundTrip,
    (run_consistent_iff firstStart [setTypes "513"] firstStart_roundTrip).mpr ?_⟩
  intro q hq
  rw [Run.steps, Run.steps, List.mem_singleton] at hq
  rw [hq]
  refine ⟨fun v hv => ?_, trivial⟩
  have hlast : Web.lastValue "SWITCH" [(lit "SWITCH", lit "513")] = some (lit "513") := by decide
  rw [hlast, Option.mem_some_iff] at hv
  subst hv
  decide

/-- 200 makes the types -56 and 0, and the number -56 that is shown makes them -56 and -1. -/
theorem not_run_consistent : ¬ ∀ (p : Panel) (rs : List SwitchEvent), p.station.RoundTrip →
    ∀ q ∈ Run.steps switchStep p rs, (q.1.switchStep q.2).station.RoundTrip ∧ q.1.KeepsOther q.2 := by
  intro h
  have hlast := (h firstStart [setTypes "200"] firstStart_roundTrip _ (List.mem_singleton_self _)).1
  rw [Station.roundTrip_iff] at hlast
  exact absurd hlast (by decide)

end Panel

end VectorFence
