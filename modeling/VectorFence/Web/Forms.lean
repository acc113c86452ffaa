import VectorFence.Settings
import VectorFence.Web.Network
import VectorFence.Web.Ssi

/-! The forms of the web pages, filled in with what the server shows for the values:

        tags 0 to 3   LAN=1 & MAC & IP & SUBMASK & GATEWEY           ──▶ Network_CGI_Handler
        tag 15        field_num_0 & alm_dly_0 & … & sensitivity_1    ──▶ Control_CGI_Handler
        tag 7         THRESHOLD_UP & THRESHOLD_DOWN                  ──▶ Control_CGI_Handler
        tag 7         TENSION_MAX_RANGE & BASE_AUTO_CALIBRATE_TIME   ──▶ Control_CGI_Handler

    The pages take the strings of the tags 7 and 15 apart at `#` and `+`. -/

namespace VectorFence

open CStr Eeprom FieldPara

namespace Web

/-- The fields of the string of a tag. -/
def field (s : CStr) (k : ℕ) : CStr := (s.splitOn 35).getD k []

/-- The fields inside of a field. -/
def subfield (s : CStr) (i k : ℕ) : CStr := ((field s i).splitOn 43).getD k []

inductive Form where | network | zones | thresholds | ranges
  deriving DecidableEq, Repr

/-- A form as the page shows it. -/
def filled (e : SsiEnv) (w : Site) : Form → CgiParams
  | .network =>
      [(lit "LAN", lit "1"), (lit "MAC", w.ssiText e .mac), (lit "IP", w.ssiText e .ip),
        (lit "SUBMASK", w.ssiText e .subMask), (lit "GATEWEY", w.ssiText e .gateway)]
  | .zones =>
      let s := w.ssiText e .fieldParas
      [(lit "field_num_0", subfield s 0 0), (lit "alm_dly_0", subfield s 0 1),
        (lit "sensitivity_0", subfield s 0 2), (lit "field_num_1", subfield s 1 0),
        (lit "alm_dly_1", subfield s 1 1), (lit "sensitivity_1", subfield s 1 2)]
  | .thresholds =>
      let s := w.ssiText e .tension
      [(lit "THRESHOLD_UP", field s 1), (lit "THRESHOLD_DOWN", field s 2)]
  | .ranges =>
      let s := w.ssiText e .tension
      [(lit "TENSION_MAX_RANGE", field s 0), (lit "BASE_AUTO_CALIBRATE_TIME", field s 3)]

/-- Sending a form. -/
def submit (params : CgiParams) (w : Site) : Form → Site
  | .network => { w with host := networkCGIHandler params w.host }
  | _ => w.onDev fun d => (controlCGIHandler params d).1

end Web

namespace Site

def station (w : Site) : Station := w.host.panel.station

theorem onDev_eq (op : Dev → Dev) (w : Site) : w.onDev op = w.onDev fun _ => op w.dev := rfl

/-- The values in force are the same. -/
def SameValues (w w' : Site) : Prop :=
  w'.host.lwipdev = w.host.lwipdev ∧ ∀ s : Setting, w'.station.value s = w.station.value s

end Site

namespace Web

/-- The values of a form are in the EEPROM. -/
def Form.Stored (w : Site) : Form → Prop
  | .network => w.host.storedNet = w.host.lwipdev
  | .zones => w.station.InStep .zones
  | .thresholds => w.station.InStep .threshold
  | .ranges => w.station.InStep .range ∧ w.station.InStep .time

/-- The bytes of a form in the EEPROM. -/
def Form.Touches (x : ℕ) : Form → Prop
  | .network => x < 18
  | .zones => Block.zones.Covers x
  | .thresholds => Block.threshold.Covers x
  | .ranges => Block.range.Covers x ∨ Block.time.Covers x

/-! ### What is shown is what is read -/

theorem not_mem_num {c : UInt8} (hc : isDigit c = false) (n : ℕ) : c ∉ num n := by
  intro h
  rw [isDigit_of_mem_dec 0 n c h] at hc
  exact absurd hc (by decide)

theorem field_intercalate {xs : List CStr} (h : ∀ x ∈ xs, (35 : UInt8) ∉ x) (hne : xs ≠ []) (k : ℕ) :
    field ([35].intercalate xs) k = xs.getD k [] := by
  rw [field, List.splitOn_intercalate 35 h hne]

theorem field_tension (d : Dev) (k : ℕ) : field (tensionStr d) k = (tensionFields d).getD k [] := by
  refine field_intercalate (fun x hx => ?_) (by simp [tensionFields]) k
  simp only [tensionFields, List.mem_cons, List.not_mem_nil, or_false] at hx
  rcases hx with rfl | rfl | rfl | rfl <;> exact not_mem_num rfl _

theorem subfield_paras (p : FieldPara) (i : Zone) (k : ℕ) :
    subfield (getWebFieldParas p) i k = (zoneFields p i).getD k [] := by
  have hplus (j : Zone) : ∀ x ∈ zoneFields p j, (43 : UInt8) ∉ x := by
    intro x hx
    simp only [zoneFields, List.mem_cons, List.not_mem_nil, or_false] at hx
    rcases hx with rfl | rfl | rfl <;> exact not_mem_num rfl _
  have hhash (j : Zone) : (35 : UInt8) ∉ [43].intercalate (zoneFields p j) := by
    simp [zoneFields, List.intercalate, not_mem_num (c := 35) rfl]
  have hzone : field (getWebFieldParas p) i = [43].intercalate (zoneFields p i) := by
    rw [getWebFieldParas, field_intercalate (by simp [hhash]) (by simp)]
    rcases zone_cases i with rfl | rfl <;> rfl
  rw [subfield, hzone, List.splitOn_intercalate 43 (hplus i) (by simp [zoneFields])]

theorem digit_hex : ∀ d < 16, AddrFormat.mac.digit
    (UInt8.ofNat (if d < 10 then 48 + d else 55 + d)) = some d := by
  decide

/-- Two digits of base 16. -/
theorem hex2_section (b : UInt8) :
    hex2 b ≠ [] ∧ AddrFormat.mac.Digits (hex2 b) ∧ AddrFormat.mac.value (hex2 b) = b.toNat := by
  have hb := b.toNat_lt
  have hhi := digit_hex (b.toNat / 16) (by omega)
  have hlo := digit_hex (b.toNat % 16) (by omega)
  refine ⟨by simp [hex2], ?_, ?_⟩
  · simp only [AddrFormat.Digits, hex2, List.forall_mem_cons]
    exact ⟨by rw [hhi]; rfl, by rw [hlo]; rfl, by simp⟩
  · simp only [AddrFormat.value, hex2, List.foldl_cons, List.foldl_nil, hhi, hlo, Option.getD_some]
    change (0 * 16 + b.toNat / 16) * 16 + b.toNat % 16 = b.toNat
    omega

theorem num_section (b : UInt8) :
    num b.toNat ≠ [] ∧ AddrFormat.ip.Digits (num b.toNat) ∧ AddrFormat.ip.value
    (num b.toNat) = b.toNat := by
  have hdig := isDigit_of_mem_dec 0 b.toNat
  have hdigit {c : UInt8} (hc : isDigit c = true) : AddrFormat.ip.digit c = some (c.toNat - 48) := by
    have h := (isDigit_iff c).mp hc
    exact if_pos ⟨UInt8.le_iff_toNat_le.mpr h.1, UInt8.le_iff_toNat_le.mpr h.2⟩
  refine ⟨?_, fun c hc => by rw [hdigit (hdig c hc)]; rfl, ?_⟩
  · rw [num, dec]
    simp [List.leftpad]
  · have hval := digits_dec 0 b.toNat
    rw [digits_of_isDigit hdig] at hval
    refine (List.foldl_ext _ _ _ fun n c hc => ?_).trans hval
    rw [hdigit (hdig c hc)]
    rfl

/-- A scanner puts the bytes that are shown back where they are. -/
theorem foldl_putByte_join {g : AddrFormat} {n : ℕ} (hn : n = g.len) {text : UInt8 → CStr}
    (htext : ∀ b, text b ≠ [] ∧ g.Digits (text b) ∧ g.value (text b) = b.toNat) (a : Fin n → UInt8) :
    (g.scan 0 0 (g.join ((List.ofFn a).map text))).1.foldl putByte a = a := by
  obtain ⟨hparts, hgram⟩ := @AddrFormat.parts_join g ((List.ofFn a).map text) (by simp [hn])
    (by
      intro x hx
      obtain ⟨b, -, rfl⟩ := List.mem_map.mp hx
      have hb := b.toNat_lt
      exact ⟨(htext b).1, (htext b).2.1, by rw [(htext b).2.2]; omega⟩)
  funext j
  rw [hgram.bytes hn a j, hparts, List.getD_eq_getElem?_getD, List.getElem?_map, List.getElem?_ofFn,
    dif_pos j.isLt, Option.map_some, Option.getD_some, (htext _).2.2, UInt8.ofNat_toNat]

theorem macStrToInt_macStr (mac : Fin 6 → UInt8) : (macStrToInt mac (macStr mac)).1 = mac :=
  foldl_putByte_join rfl hex2_section mac

theorem ipStrToInt_ipStr (ip : Fin 4 → UInt8) : (ipStrToInt ip (ipStr ip)).1 = ip :=
  foldl_putByte_join rfl num_section ip

/-! ### The requests of the forms -/

/-- Only the EEPROM differs, and that in the bytes of a form. -/
structure Form.Restores (form : Form) (d d' : Dev) : Prop where
  same : d' = { d with mem := d'.mem }
  frame : ∀ x, ¬form.Touches x → d'.mem x = d.mem x

theorem Form.Restores.refl (form : Form) (d : Dev) : form.Restores d d := ⟨rfl, fun _ _ => rfl⟩

theorem Form.Restores.trans {form : Form} {d d' d'' : Dev} (h : form.Restores d d')
    (h' : form.Restores d' d'') :
    form.Restores d d'' :=
  ⟨by rw [h'.same, h.same], fun x hx => (h'.frame x hx).trans (h.frame x hx)⟩

section Setters

variable (d : Dev)

theorem restores_para : Form.zones.Restores d d.storePara :=
  ⟨rfl, fun _ hx => d.storePara_mem (Block.not_covers hx)⟩

theorem restores_up : Form.thresholds.Restores d (d.setAlmThrdUpDif d.alarm.alarmThresholdUpDif) :=
  ⟨rfl, fun _ hx => Dev.storeAlmThrd_mem { d with alarm := _ } (Block.not_covers hx)⟩

theorem restores_down : Form.thresholds.Restores d (d.setAlmThrdDwDif d.alarm.alarmThresholdDownDif) :=
  ⟨rfl, fun _ hx => Dev.storeAlmThrd_mem { d with alarm := _ } (Block.not_covers hx)⟩

theorem restores_range : Form.ranges.Restores d (d.setTensionMaxRange d.adc.tensionMaxRange) :=
  ⟨rfl, fun _ hx => d.setTensionMaxRange_mem _ (Block.not_covers fun h => hx (Or.inl h))⟩

theorem restores_time : Form.ranges.Restores d
    (d.setBaseAutoCalibrateTime d.adc.baseAutoCalibrateTime) :=
  ⟨rfl, fun _ hx => d.setBaseAutoCalibrateTime_mem _ (Block.not_covers fun h => hx (Or.inr h))⟩

end Setters

section Submit

variable {e : SsiEnv} {w : Site} {params : CgiParams}

/-- The values of the network form are those of `lwipdev`. -/
theorem foldl_assignNet_filled (h : ∀ kv ∈ params, kv ∈ filled e w .network) :
    params.foldl assignNet w.host.lwipdev = w.host.lwipdev := by
  refine Run.foldl_inv_of_mem (· = w.host.lwipdev) (fun kv hkv l hl => ?_) rfl
  subst hl
  have hkv := h kv hkv
  simp only [filled, List.mem_cons, List.not_mem_nil, or_false] at hkv
  rcases hkv with rfl | rfl | rfl | rfl | rfl
  · rfl
  · exact LwipDev.ext (macStrToInt_macStr _) rfl rfl rfl
  · exact LwipDev.ext rfl (ipStrToInt_ipStr _) rfl rfl
  · exact LwipDev.ext rfl rfl (ipStrToInt_ipStr _) rfl
  · exact LwipDev.ext rfl rfl rfl (ipStrToInt_ipStr _)

/-- What is shown for a zone parameter is its value. -/
theorem putPara_zoneFields (p : FieldPara) (i : Zone) :
    putPara .num i ((zoneFields p i).getD 0 []) p = p ∧ putPara .delay i
    ((zoneFields p i).getD 1 []) p = p ∧
      putPara .sensitivity i ((zoneFields p i).getD 2 []) p = p := by
  have hnum : u8 ((zoneFields p i).getD 0 []) = p.fieldNum i := u8_dec _
  have hdelay : u16 ((zoneFields p i).getD 1 []) = p.alarmDelay i := u16_dec _
  have hsens : u16 ((zoneFields p i).getD 2 []) = (p.alarmSensitivity i).toUInt16 := by
    have h := u16_dec (w := 0) (p.alarmSensitivity i).toUInt16
    rw [UInt8.toNat_toUInt16] at h
    exact h
  simp only [putPara, hnum, hdelay, hsens, UInt8.toUInt8_toUInt16, Function.update_eq_self, and_self]

/-- The values of the zone form are those of the variables. -/
theorem foldl_assignPara_filled (h : ∀ kv ∈ params, kv ∈ filled e w .zones) :
    params.foldl assignPara w.dev.para = w.dev.para := by
  refine Run.foldl_inv_of_mem (· = w.dev.para) (fun kv hkv p hp => ?_) rfl
  have hkv := h kv hkv
  have hfield (i : Zone) (k : ℕ) : subfield (w.ssiText e .fieldParas) i k =
    (zoneFields p i).getD k [] := by
    rw [hp]
    exact subfield_paras w.dev.para i k
  have hput (i : Zone) := putPara_zoneFields p i
  rw [← hp]
  simp only [filled, List.mem_cons, List.not_mem_nil, or_false] at hkv
  rcases hkv with rfl | rfl | rfl | rfl | rfl | rfl
  · exact (assignPara_name p _ .num 0).trans (hfield 0 0 ▸ (hput 0).1)
  · exact (assignPara_name p _ .delay 0).trans (hfield 0 1 ▸ (hput 0).2.1)
  · exact (assignPara_name p _ .sensitivity 0).trans (hfield 0 2 ▸ (hput 0).2.2)
  · exact (assignPara_name p _ .num 1).trans (hfield 1 0 ▸ (hput 1).1)
  · exact (assignPara_name p _ .delay 1).trans (hfield 1 1 ▸ (hput 1).2.1)
  · exact (assignPara_name p _ .sensitivity 1).trans (hfield 1 2 ▸ (hput 1).2.2)

/-- What is shown for the four values of tag 7. -/
theorem u16_tension (d : Dev) : u16 (field (tensionStr d) 0) = d.adc.tensionMaxRange ∧
    u16 (field (tensionStr d) 1) = d.alarm.alarmThresholdUpDif ∧
    u16 (field (tensionStr d) 2) = d.alarm.alarmThresholdDownDif ∧
    u16 (field (tensionStr d) 3) = d.adc.baseAutoCalibrateTime := by
  simp only [field_tension]
  exact ⟨u16_dec _, u16_dec _, u16_dec _, u16_dec _⟩

theorem setThresholds_up (v : CStr) (d : Dev) :
    setThresholds [(lit "THRESHOLD_UP", v)] d = d.setAlmThrdUpDif (u16 v) := rfl

theorem setThresholds_down (v : CStr) (d : Dev) :
    setThresholds [(lit "THRESHOLD_DOWN", v)] d = d.setAlmThrdDwDif (u16 v) := rfl

theorem setRange_range (v : CStr) (d : Dev) :
    setRange [(lit "TENSION_MAX_RANGE", v)] d = d.setTensionMaxRange (u16 v) := rfl

theorem setRange_time (v : CStr) (d : Dev) :
    setRange [(lit "BASE_AUTO_CALIBRATE_TIME", v)] d = d.setBaseAutoCalibrateTime (u16 v) := rfl

theorem ssiText_tension (e : SsiEnv) (w : Site) : w.ssiText e .tension = tensionStr w.dev := rfl

/-- One turn of the loop over the thresholds stores both of them. -/
theorem setThresholds_turn {kv : CStr × CStr} (hkv : kv ∈ filled e w .thresholds) {d : Dev}
    (h : Form.thresholds.Restores w.dev d) : Form.thresholds.Restores w.dev (setThresholds [kv] d) ∧
      Station.InStep .threshold { w.station with dev := setThresholds [kv] d } := by
  obtain ⟨-, hup, hdown, -⟩ := u16_tension w.dev
  have halarm : d.alarm = w.dev.alarm := by rw [h.same]
  simp only [filled, ssiText_tension, List.mem_cons, List.not_mem_nil, or_false] at hkv
  rcases hkv with rfl | rfl
  · rw [setThresholds_up, hup, ← halarm]
    exact ⟨h.trans (restores_up d), inStep_threshold rfl⟩
  · rw [setThresholds_down, hdown, ← halarm]
    exact ⟨h.trans (restores_down d), inStep_threshold rfl⟩

/-- One turn of the loop over range and time stores its own value. -/
theorem setRange_turn {kv : CStr × CStr} (hkv : kv ∈ filled e w .ranges) {d : Dev}
    (h : Form.ranges.Restores w.dev d) : Form.ranges.Restores w.dev (setRange [kv] d) ∧
      ((kv.1 = lit "TENSION_MAX_RANGE" ∧ setRange [kv] d = d.setTensionMaxRange d.adc.tensionMaxRange) ∨
        (kv.1 = lit "BASE_AUTO_CALIBRATE_TIME" ∧
          setRange [kv] d = d.setBaseAutoCalibrateTime d.adc.baseAutoCalibrateTime)) := by
  obtain ⟨hrange, -, -, htime⟩ := u16_tension w.dev
  have hadc : d.adc = w.dev.adc := by rw [h.same]
  simp only [filled, ssiText_tension, List.mem_cons, List.not_mem_nil, or_false] at hkv
  rcases hkv with rfl | rfl
  · rw [setRange_range, hrange, ← hadc]
    exact ⟨h.trans (restores_range d), Or.inl ⟨rfl, rfl⟩⟩
  · rw [setRange_time, htime, ← hadc]
    exact ⟨h.trans (restores_time d), Or.inr ⟨rfl, rfl⟩⟩

/-- The handler takes the branch of the form. -/
theorem findCGIParameter_filled {form : Form} (h : ∀ kv, kv ∈ params ↔ kv ∈ filled e w form)
    (name : String) :
    findCGIParameter name params = findCGIParameter name (filled e w form) := by
  rw [findCGIParameter, findCGIParameter, Bool.eq_iff_iff, List.any_eq_true, List.any_eq_true]
  exact exists_congr fun kv => and_congr_left fun _ => h kv

/-- The device after a form that is sent as it is shown. -/
structure Form.Saves (form : Form) (w : Site) (d : Dev) : Prop where
  restores : form.Restores w.dev d
  stored : form.Stored (w.onDev fun _ => d)

theorem saves_zones (h : ∀ kv ∈ params, kv ∈ filled e w .zones) :
    Form.zones.Saves w (setZonePara params w.dev) := by
  have hset : setZonePara params w.dev = w.dev.storePara := by
    rw [setZonePara, foldl_assignPara_filled h]
  rw [hset]
  exact ⟨restores_para w.dev, inStep_zones rfl⟩

theorem saves_thresholds (h : ∀ kv, kv ∈ params ↔ kv ∈ filled e w .thresholds) :
    Form.thresholds.Saves w (setThresholds params w.dev) := by
  have hturn {kv : CStr × CStr} (hkv : kv ∈ params) {d : Dev} (hd : Form.thresholds.Restores w.dev d) :=
    setThresholds_turn ((h kv).mp hkv) hd
  have hup : (lit "THRESHOLD_UP", field (w.ssiText e .tension) 1) ∈ params :=
    (h _).mpr (by simp [filled])
  have hfold : setThresholds params w.dev = params.foldl (fun d kv => setThresholds [kv] d) w.dev := rfl
  rw [hfold]
  refine ⟨Run.foldl_inv_of_mem (Form.thresholds.Restores w.dev) (fun kv hkv d hd => (hturn hkv hd).1)
    (.refl _ _), ?_⟩
  exact Run.foldl_of_mem (Form.thresholds.Restores w.dev)
    (fun d => Station.InStep .threshold { w.station with dev := d })
    (fun kv hkv d hd => (hturn hkv hd).1) (fun kv hkv d hd _ => (hturn hkv hd).2) hup
    (fun d hd => (hturn hup hd).2) (.refl _ _)

/-- Range and time have a block each, which the other one does not touch. -/
theorem inStep_range_time (st : Station) (d : Dev) :
    (Station.InStep .range { st with dev := d } → Station.InStep .range
      { st with dev := d.setBaseAutoCalibrateTime d.adc.baseAutoCalibrateTime }) ∧
    (Station.InStep .time { st with dev := d } → Station.InStep .time
      { st with dev := d.setTensionMaxRange d.adc.tensionMaxRange }) := by
  have htime {x : ℕ} (hx : Block.range.Covers x) : ¬Block.time.Covers x := fun h =>
    absurd (Block.covers_inj hx h) (by decide)
  have hrange {x : ℕ} (hx : Block.time.Covers x) : ¬Block.range.Covers x := fun h =>
    absurd (Block.covers_inj hx h) (by decide)
  exact ⟨fun h => h.congr (Station.value_mem { st with dev := d } _) fun x hx =>
      d.setBaseAutoCalibrateTime_mem _ (Block.not_covers (htime hx)),
    fun h => h.congr (Station.value_mem { st with dev := d } _) fun x hx =>
      d.setTensionMaxRange_mem _ (Block.not_covers (hrange hx))⟩

theorem saves_ranges (h : ∀ kv, kv ∈ params ↔ kv ∈ filled e w .ranges) :
    Form.ranges.Saves w (setRange params w.dev) := by
  have hturn {kv : CStr × CStr} (hkv : kv ∈ params) {d : Dev} (hd : Form.ranges.Restores w.dev d) :=
    setRange_turn ((h kv).mp hkv) hd
  have hrange : (lit "TENSION_MAX_RANGE", field (w.ssiText e .tension) 0) ∈ params :=
    (h _).mpr (by simp [filled])
  have htime : (lit "BASE_AUTO_CALIBRATE_TIME", field (w.ssiText e .tension) 3) ∈ params :=
    (h _).mpr (by simp [filled])
  have hfold : setRange params w.dev = params.foldl (fun d kv => setRange [kv] d) w.dev := rfl
  have hkeep {d : Dev} := inStep_range_time w.station d
  have hne : lit "TENSION_MAX_RANGE" ≠ lit "BASE_AUTO_CALIBRATE_TIME" := by decide
  rw [hfold]
  refine ⟨Run.foldl_inv_of_mem (Form.ranges.Restores w.dev) (fun kv hkv d hd => (hturn hkv hd).1)
    (.refl _ _), ?_, ?_⟩
  · refine Run.foldl_of_mem (Form.ranges.Restores w.dev)
      (fun d => Station.InStep .range { w.station with dev := d })
      (fun kv hkv d hd => (hturn hkv hd).1) (fun kv hkv d hd hin => ?_) hrange (fun d hd =>
      ?_) (.refl _ _)
    · rcases (hturn hkv hd).2 with ⟨-, hset⟩ | ⟨-, hset⟩
      · exact hset ▸ inStep_range rfl
      · exact hset ▸ hkeep.1 hin
    · rcases (hturn hrange hd).2 with ⟨-, hset⟩ | ⟨hname, -⟩
      · exact hset ▸ inStep_range rfl
      · exact absurd hname hne
  · refine Run.foldl_of_mem (Form.ranges.Restores w.dev)
      (fun d => Station.InStep .time { w.station with dev := d })
      (fun kv hkv d hd => (hturn hkv hd).1) (fun kv hkv d hd hin => ?_) htime (fun d hd =>
      ?_) (.refl _ _)
    · rcases (hturn hkv hd).2 with ⟨-, hset⟩ | ⟨-, hset⟩
      · exact hset ▸ hkeep.2 hin
      · exact hset ▸ inStep_time rfl
    · rcases (hturn htime hd).2 with ⟨hname, -⟩ | ⟨-, hset⟩
      · exact absurd hname hne.symm
      · exact hset ▸ inStep_time rfl

/-- The handler takes the branch of the form. -/
theorem saves_control {form : Form} (hform : form ≠ .network)
    (h : ∀ kv, kv ∈ params ↔ kv ∈ filled e w form) :
    form.Saves w (controlCGIHandler params w.dev).1 := by
  have hname := findCGIParameter_filled h
  cases form with
  | network => exact absurd rfl hform
  | zones =>
    have hbranch : (controlCGIHandler params w.dev).1 = setZonePara params w.dev := by
      simp only [controlCGIHandler, hname]
      rfl
    exact hbranch ▸ saves_zones fun kv => (h kv).mp
  | thresholds =>
    have hbranch : (controlCGIHandler params w.dev).1 = setThresholds params w.dev := by
      simp only [controlCGIHandler, hname]
      rfl
    exact hbranch ▸ saves_thresholds h
  | ranges =>
    have hbranch : (controlCGIHandler params w.dev).1 = setRange params w.dev := by
      simp only [controlCGIHandler, hname]
      rfl
    exact hbranch ▸ saves_ranges h

theorem submit_network (h : ∀ kv, kv ∈ params ↔ kv ∈ filled e w .network) :
    submit params w .network = { w with host := w.host.lwipResetNetifIpaddr } := by
  have hname := findCGIParameter_filled h "LAN"
  have hmac : (lit "MAC", w.ssiText e .mac) ∈ params := (h _).mpr (by simp [filled])
  have hflag : modifyFlag params = true := by
    rw [modifyFlag, List.any_eq_true]
    exact ⟨_, hmac, rfl⟩
  rw [submit, networkCGIHandler, hname, hflag, foldl_assignNet_filled fun kv => (h kv).mp]
  rfl

end Submit

/-! ### The other forms -/

section Frame

variable {form form' : Form} {w w' : Site}

/-- The bytes of two forms are not the same. -/
theorem Form.Touches.other {x : ℕ} (h : form'.Touches x) (hne : form' ≠ form) : ¬form.Touches x := by
  intro h'
  cases form <;> cases form' <;> simp only [Touches, Block.Covers, Block.start, Block.len] at h h' <;>
    first | exact hne rfl | omega

/-- A form that is not touched stays in the EEPROM. -/
theorem Form.Stored.congr (h : form.Stored w) (hval : w.SameValues w')
    (hmem : ∀ x, form.Touches x → w'.dev.mem x = w.dev.mem x) : form.Stored w' := by
  cases form with
  | network =>
    have hread {a : ℕ} (ha : a < 18) : at24cxxReadOneByte w'.dev.mem a =
      at24cxxReadOneByte w.dev.mem a := by
      rw [readOneByte_eq _ (by omega), readOneByte_eq _ (by omega)]
      exact hmem a ha
    have hstored : w'.host.storedNet = w.host.storedNet := by
      refine LwipDev.ext (funext fun i => hread ?_) (funext fun i => hread ?_)
        (funext fun i => hread ?_)
        (funext fun i => hread ?_)
      all_goals
        have hi := i.isLt
        rw [netParaAddr]
        omega
    exact hstored.trans (h.trans hval.1.symm)
  | zones => exact Station.InStep.congr h hval.2 hmem
  | thresholds => exact Station.InStep.congr h hval.2 hmem
  | ranges =>
    exact ⟨h.1.congr hval.2 fun x hx => hmem x (Or.inl hx), h.2.congr hval.2 fun x hx =>
      hmem x (Or.inr hx)⟩

end Frame

/-- The values are those of the variables, and the bytes of the other forms are not written. -/
theorem submit_frame {e : SsiEnv} {w : Site} {form : Form} {params : CgiParams}
    (h : ∀ kv, kv ∈ params ↔ kv ∈ filled e w form) :
    w.SameValues (submit params w form) ∧ form.Stored (submit params w form) ∧
      ∀ x, ¬form.Touches x → (submit params w form).dev.mem x = w.dev.mem x := by
  by_cases hform : form = .network
  · subst hform
    rw [submit_network h]
    refine ⟨⟨Host.lwipdev_reset _, fun s => ?_⟩, Host.storedNet_reset _, fun x hx => ?_⟩
    · rw [Site.station, Host.station_reset]
      exact Station.value_mem w.station _ s
    · exact LwipDev.writeNetParas_frame _ _ (not_lt.mp hx)
  · obtain ⟨⟨hsame, hframe⟩, hstored⟩ := saves_control hform h
    have hsubmit : submit params w form = w.onDev fun d => (controlCGIHandler params d).1 := by
      cases form with
      | network => exact absurd rfl hform
      | _ => rfl
    rw [hsubmit, Site.onDev_eq]
    refine ⟨⟨rfl, fun s => ?_⟩, hstored, hframe⟩
    change Station.value { w.station with dev := (controlCGIHandler params w.dev).1 } s = _
    rw [hsame]
    exact Station.value_mem w.station _ s

/-- A form that is sent as it is shown, its parameters in any order, changes no value, stores the
    values it has, and leaves the other forms stored. -/
theorem submit_filled (e : SsiEnv) (w : Site) (form : Form) (params : CgiParams)
    (h : ∀ kv, kv ∈ params ↔ kv ∈ filled e w form) :
    w.SameValues (submit params w form) ∧ form.Stored (submit params w form) ∧
      ∀ form' : Form, form'.Stored w → form'.Stored (submit params w form) := by
  obtain ⟨hval, hstored, hmem⟩ := submit_frame h
  refine ⟨hval, hstored, fun form' h' => ?_⟩
  by_cases hne : form' = form
  · exact hne ▸ hstored
  · exact h'.congr hval fun x hx => hmem x (hx.other hne)

/-- The zones of a new device. -/
theorem submit_filled_firstStart :
    Form.zones.Stored (submit (filled ⟨0, false, 0⟩ ⟨Host.firstStart, 0⟩ .zones)
    ⟨Host.firstStart, 0⟩ .zones) :=
  (submit_filled ⟨0, false, 0⟩ ⟨Host.firstStart, 0⟩ .zones _ fun _ => Iff.rfl).2.1

end Web

end VectorFence
