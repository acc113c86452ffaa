import VectorFence.Lib.Run
import VectorFence.Log.PageText
import VectorFence.Web.Ssi

/-! What is put into the pages fits the buffers it is put into:

        tag_insert           193 bytes   the text of a tag
        crtWebPageLogData    200 bytes   the page of the log, which is the text of the tag `log`

    Two texts can get too long. A page has up to ten entries of 19 characters and a `#` each; and
    the six lines of two zones have 36 values, each of up to six characters, with 35 separators:

        nine entries   180 + 1      36 values of four characters    179 + 1
        ten entries    200 + 1      36 values of five characters    215 + 1 -/

namespace VectorFence

open CStr

/-- The size of `crtWebPageLogData`. -/
def webPageLogDataSize : ℕ := eachWebPageLogNum * eachLogSize

namespace Web

/-! ### The texts of the tags -/

theorem length_num_byte (b : UInt8) : (num b.toNat).length ≤ 3 :=
  (length_dec_le (by norm_num) (Nat.zero_le 3)).mpr (by have := b.toNat_lt; omega)

theorem length_num_word (v : UInt16) : (num v.toNat).length ≤ 5 :=
  (length_dec_le (by norm_num) (Nat.zero_le 5)).mpr (by have := v.toNat_lt; omega)

theorem length_macStr (mac : Fin 6 → UInt8) : (macStr mac).length ≤ 18 := by
  have h : (macStr mac).length ≤ ((List.ofFn mac).map hex2).length * 3 :=
    length_intercalate_le _ (by simp [hex2])
  rwa [List.length_map, List.length_ofFn] at h

theorem length_ipStr (ip : Fin 4 → UInt8) : (ipStr ip).length ≤ 16 := by
  have h : (ipStr ip).length ≤ ((List.ofFn ip).map fun b => num b.toNat).length * 4 := by
    refine length_intercalate_le _ fun x hx => ?_
    obtain ⟨b, -, rfl⟩ := List.mem_map.mp hx
    exact length_num_byte b
  rwa [List.length_map, List.length_ofFn] at h

theorem length_tempStr (temp : UInt16) : (Iic.tempStr temp).length ≤ 6 := by
  have hdeg : (dec 0 (temp >>> 8).toUInt8.toNat).length ≤ 3 := length_num_byte _
  have hneg : (dec 0 (~~~(temp >>> 8).toUInt8 + 1).toNat).length ≤ 3 := length_num_byte _
  have hhalf : (dec 0 5).length = 1 ∧ (dec 0 0).length = 1 ∧ (lit ".").length = 1 ∧
    (lit "-").length = 1 := by decide
  simp only [Iic.tempStr]
  split_ifs <;> simp only [List.length_append] <;> omega

theorem length_tensionStr (d : Dev) : (tensionStr d).length ≤ 24 := by
  have h : (tensionStr d).length ≤ (tensionFields d).length * 6 := by
    refine length_intercalate_le 35 fun x hx => ?_
    simp only [tensionFields, List.mem_cons, List.not_mem_nil, or_false] at hx
    rcases hx with rfl | rfl | rfl | rfl <;> exact length_num_word _
  exact h

theorem length_zoneFields (p : FieldPara) (i : Zone) :
    ([43].intercalate (zoneFields p i)).length ≤ 18 := by
  have h : ([43].intercalate (zoneFields p i)).length ≤ (zoneFields p i).length * 6 := by
    refine length_intercalate_le 43 fun x hx => ?_
    simp only [zoneFields, List.mem_cons, List.not_mem_nil, or_false] at hx
    rcases hx with rfl | rfl | rfl
    · exact (length_num_byte _).trans (by norm_num)
    · exact length_num_word _
    · exact (length_num_byte _).trans (by norm_num)
  exact h

theorem length_getWebFieldParas (p : FieldPara) : (getWebFieldParas p).length ≤ 38 := by
  have hzones : ∀ x ∈ [[43].intercalate (zoneFields p 0), [43].intercalate (zoneFields p 1)],
    x.length ≤ 18 := by
    simp [length_zoneFields]
  exact length_intercalate_le 35 hzones

theorem calibratingNum_lt (a : Adc) : calibratingNum a < 2 ^ 20 := by
  have h0 := (a.calibrateEn 0).toNat_lt
  have h1 := (a.calibrateEn 1).toNat_lt
  have hflag := a.calibratingFlag.toNat_lt
  refine Nat.or_lt_two_pow (Nat.or_lt_two_pow ?_ ?_) (by omega) <;> rw [Nat.shiftLeft_eq] <;> omega

theorem modelNum_le (e : SsiEnv) (wires : Wires) : modelNum e wires ≤ 3 := by
  have hflag := e.fieldFlagS0D1.toNat_le
  rcases wires with _ | _ <;> simp only [modelNum] <;> omega

theorem length_packSwType (st : Station) : (int (packSwType st)).length ≤ 38 := by
  have hlo := Int32.le_toInt ((st.swType 1).toInt32 <<< 8 ||| (st.swType 0).toInt32)
  have hhi := Int32.toInt_lt ((st.swType 1).toInt32 <<< 8 ||| (st.swType 0).toInt32)
  have hlog : Nat.log 10 (packSwType st).natAbs < 10 := by
    refine Nat.log_lt_of_lt_pow' (by norm_num) ?_
    rw [packSwType]
    omega
  rw [length_int, width]
  split_ifs <;> omega

/-- The texts of the other tags are short. -/
theorem length_ssiText_le (e : SsiEnv) {w : Site} (hnum : w.dev.log.crtWebLogPageNum < 256) {t : Tag}
    (hlog : t ≠ .log) (hadc : t ≠ .adcVals) : (w.ssiText e t).length ≤ 38 := by
  have hbyte {n : ℕ} (hn : n < 1000) : (num n).length ≤ 38 :=
    ((length_dec_le (by norm_num) (Nat.zero_le 3)).mpr hn).trans (by norm_num)
  have hword {n : ℕ} (hn : n < 10 ^ 7) : (num n).length ≤ 38 :=
    ((length_dec_le (by norm_num) (Nat.zero_le 7)).mpr hn).trans (by norm_num)
  cases t with
  | log => exact absurd rfl hlog
  | adcVals => exact absurd rfl hadc
  | mac => exact (length_macStr _).trans (by norm_num)
  | ip | subMask | gateway => exact (length_ipStr _).trans (by norm_num)
  | temperature => exact (length_tempStr _).trans (by norm_num)
  | dateTime => exact (List.length_take_le ..).trans (by norm_num)
  | alarmState => exact hword (w.dev.alarm.alarmState.isLt.trans (by norm_num))
  | tension => exact (length_tensionStr _).trans (by norm_num)
  | hardwareVersion => exact (by decide : (lit "0.1").length ≤ 38)
  | softwareVersion => exact (by decide : (lit "00.01").length ≤ 38)
  | controlState => exact hbyte (w.dev.controlPara.toNat_lt.trans (by norm_num))
  | logType => exact hbyte (w.logType.toNat_lt.trans (by norm_num))
  | webPageFlag => exact hbyte (w.dev.log.webLogPageFlag.toNat_lt.trans (by norm_num))
  | remoteShutdown => exact hbyte (e.remoteShutdown.toNat_lt.trans (by norm_num))
  | configCode => exact hbyte (w.dev.alarm.configCode.isLt.trans (by norm_num))
  | switches => exact length_packSwType _
  | fieldParas => exact length_getWebFieldParas _
  | logPageNum => exact hbyte (hnum.trans (by norm_num))
  | logPageTotal => exact hbyte ((Nat.mod_lt _ (by norm_num)).trans (by norm_num))
  | model => exact hbyte ((modelNum_le _ _).trans_lt (by norm_num))
  | calibrating => exact hword ((calibratingNum_lt _).trans (by norm_num))

/-! ### The tension values -/

/-- The characters of the values of two zones. -/
def widths (v : Zone → Line → Int16) : ℕ := ∑ f, ∑ i, width (v f i).toInt

theorem length_lineStr (v : Line → Int16) : (lineStr v).length = (∑ i, width (v i).toInt) + 5 := by
  have h : (lineStr v).length + 1 = (((List.ofFn v).map fun x => int x.toInt).map fun x =>
    x.length + 1).sum :=
    length_intercalate 43 (by simp)
  rw [List.map_map, List.map_ofFn, List.sum_ofFn] at h
  simp only [Function.comp, length_int, Finset.sum_add_distrib, Finset.sum_const, Finset.card_univ,
    Fintype.card_fin, smul_eq_mul] at h
  exact Nat.succ.inj h

theorem length_zonesStr (v : Zone → Line → Int16) :
    ([35].intercalate [lineStr (v 0), lineStr (v 1)]).length = widths v + 11 := by
  have h := length_intercalate 35 (List.cons_ne_nil (lineStr (v 0)) [lineStr (v 1)])
  simp only [List.map_cons, List.map_nil, List.sum_cons, List.sum_nil, length_lineStr] at h
  rw [widths, Fin.sum_univ_two]
  omega

/-- 36 values with 35 separators. -/
theorem length_getWebAdcValStr (a : Adc) : (getWebAdcValStr a).length =
    widths a.crtVal + widths a.zeroVal + widths a.baseVal + 35 := by
  have h : (getWebAdcValStr a).length + 1 = (([a.crtVal, a.zeroVal, a.baseVal].map fun v =>
      [35].intercalate [lineStr (v 0), lineStr (v 1)]).map fun x => x.length + 1).sum :=
    length_intercalate 64 (by simp)
  simp only [List.map_cons, List.map_nil, List.sum_cons, List.sum_nil, length_zonesStr] at h
  omega

theorem width_le_four {x : ℤ} (h : -1000 < x ∧ x < 10000) : width x ≤ 4 := by
  rw [width]
  split_ifs with hneg
  · have hlog : Nat.log 10 x.natAbs < 3 := Nat.log_lt_of_lt_pow' (by norm_num) (by omega)
    omega
  · have hlog : Nat.log 10 x.natAbs < 4 := Nat.log_lt_of_lt_pow' (by norm_num) (by omega)
    omega

theorem widths_le {v : Zone → Line → Int16} (h : ∀ f i, -1000 < (v f i).toInt ∧ (v f i).toInt < 10000) :
    widths v ≤ 48 := by
  have hline (f : Zone) : (∑ i, width (v f i).toInt) ≤ 24 := by
    have hsum := Finset.sum_le_card_nsmul Finset.univ (fun i => width (v f i).toInt) 4
      fun i _ => width_le_four (h f i)
    simpa using hsum
  have hzone := Finset.sum_le_card_nsmul Finset.univ
    (fun f => ∑ i, width (v f i).toInt) 24 fun f _ => hline f
  simpa [widths] using hzone

/-- Values of four characters fit. -/
theorem length_getWebAdcValStr_le {a : Adc} (h : ∀ v ∈ [a.crtVal, a.zeroVal, a.baseVal], ∀ f i,
    -1000 < (v f i).toInt ∧ (v f i).toInt < 10000) : (getWebAdcValStr a).length ≤ 179 := by
  simp only [List.forall_mem_cons] at h
  have hcrt := widths_le h.1
  have hzero := widths_le h.2.1
  have hbase := widths_le h.2.2.1
  rw [length_getWebAdcValStr]
  omega

end Web

/-! ### The requests -/

/-- What happens to the site. Between the functions that know the page of the log, everything else
    may be changed: the readings, the tables, the parameters, the clock, the EEPROM, the other log
    variables. -/
inductive SiteEvent where
  | logType (v : UInt8)
  | clear
  | getLog (c : PageCmd)
  | insert (e : SsiEnv) (t : Tag)
  | writeLog (t : LogType) (alarmFlag : UInt8)
  | clearLog (t : LogType)
  | restart
  | other (h : Host)

namespace Web

/-- `Log_Handler`: what it calls, one after the other. -/
def logHandler (params : CgiParams) : List SiteEvent :=
  if findCGIParameter "LOGTYPE" params then
    ((params.find? fun p => p.1 = lit "LOGTYPE").map fun p => SiteEvent.logType (u8 p.2)).toList
  else if findCGIParameter "CLEAR" params then
    (params.filter fun p => p.1 = lit "CLEAR" ∧ p.2 = lit "1").map fun _ => .clear
  else if findCGIParameter "GETLOG" params then
    (params.filter fun p => p.1 = lit "GETLOG").filterMap fun p =>
      if p.2 = lit "0" then some (.getLog .previous)
      else if p.2 = lit "1" then some (.getLog .next)
      else none
  else []

end Web

namespace Site

open Web Log Pager

def page (w : Site) : CStr := w.dev.log.crtWebPageLogData

def onLog (op : Log → Log) (w : Site) : Site := w.onDev fun d => { d with log := op d.log }

def step (w : Site) : SiteEvent → Site
  | .logType v =>
    { w with logType := v }.onLog fun s =>
      { s with crtWebPageLogData := [], lastWebPageReadDir := .down }
  | .clear =>
    match w.ring with
    | some t => w.onDev (Dev.clearLog t)
    | none => w
  | .getLog c => w.readPage fun m t => Log.page m t .web c
  | .insert e t => (w.ssiHandler e t).1
  | .writeLog t alarmFlag => w.onDev (Dev.writeLog t alarmFlag)
  | .clearLog t => w.onDev (Dev.clearLog t)
  | .restart =>
    { w with logType := 4 }.onDev fun d =>
      { d with mem := (logInit d.mem powerOn).1, log := (logInit d.mem powerOn).2 }
  | .other h =>
    { w with host := h }.onLog fun s =>
      { s with crtWebPageLogData := w.page, crtWebLogPageNum := w.dev.log.crtWebLogPageNum }

/-- What is written into `tag_insert`. -/
def inserted (w : Site) : SiteEvent → CStr
  | .insert e t => (w.ssiHandler e t).2
  | _ => []

/-- The functions of `log.c` are asked for one of the five logs. -/
def Indexed (w : Site) : SiteEvent → Prop
  | .clear | .getLog _ | .insert _ .logPageTotal => w.logType.toNat < 5
  | .insert _ .log => w.page.headD 0 = 0 → w.logType.toNat < 5
  | _ => True

/-- The text that is inserted and the page fit their buffers, with the NUL. -/
structure Fits (w : Site) (ev : SiteEvent) : Prop where
  inserted : (w.inserted ev).length + 1 ≤ Web.lwipHttpdMaxTagInsertLen + 1
  page : (w.step ev).page.length + 1 ≤ webPageLogDataSize

/-- The page, which is what is inserted for the tag `log` from then on, fits there. -/
def Showable (w : Site) : Prop := w.page.length + 1 ≤ Web.lwipHttpdMaxTagInsertLen + 1

/-- The entries of the page that a command is about to read. -/
def entries (w : Site) (c : PageCmd) : List (List UInt8) :=
  match w.ring with
  | some t => pageEntries w.dev.mem t c w.dev.log
  | none => []

/-- The entries of a page take at most 192 bytes, the values at most 157 characters. -/
def Room (w : Site) : SiteEvent → Prop
  | .getLog c => rowsLen (w.entries c) ≤ 192
  | .insert _ .log => w.page.headD 0 = 0 → rowsLen (w.entries .first) ≤ 192
  | .insert _ .adcVals =>
    widths w.dev.adc.crtVal + widths w.dev.adc.zeroVal + widths w.dev.adc.baseVal ≤ 157
  | _ => True

/-! ### One step -/

variable {w : Site} {ev : SiteEvent}

theorem length_le_of_showable (h : w.Showable) : w.page.length ≤ 192 := Nat.le_of_succ_le_succ h

/-- A step fits when its text and its page have at most 192 bytes. -/
theorem fits_iff : w.Fits ev ∧ (w.step ev).Showable ↔
    (w.inserted ev).length ≤ 192 ∧ (w.step ev).page.length ≤ 192 := by
  constructor
  · rintro ⟨h, hshow⟩
    exact ⟨Nat.le_of_succ_le_succ h.inserted, length_le_of_showable hshow⟩
  · rintro ⟨htext, hpage⟩
    have hsize : webPageLogDataSize = 200 := rfl
    exact ⟨⟨Nat.succ_le_succ htext, by omega⟩, Nat.succ_le_succ hpage⟩

theorem ring_isSome (h : w.logType.toNat < 5) : w.ring = some ⟨w.logType.toNat, h⟩ := dif_pos h

theorem ring_eq_some {t : LogType} (h : w.logType.toNat = t) : w.ring = some t := by
  rw [ring_isSome (h ▸ t.isLt)]
  exact congrArg some (Fin.ext h)

/-- A page that is read takes what its entries take. -/
theorem length_readPage (c : PageCmd) (h : w.logType.toNat < 5) :
    (w.readPage fun m t => Log.page m t .web c).page.length = rowsLen (w.entries c) := by
  rw [readPage, entries, ring_isSome h]
  exact length_page c w.dev.log

theorem ssiHandler_of_ne (e : SsiEnv) {t : Tag} (h : t ≠ .log) :
    w.ssiHandler e t = (w, w.ssiText e t) := by
  cases t with
  | log => exact absurd rfl h
  | _ => rfl

/-- The tag `log` shows the page that is there. -/
theorem showLog_of_shown (h : w.page.headD 0 ≠ 0) : w.showLog = w := if_neg h

theorem showLog_of_empty (h : w.page.headD 0 = 0) :
    w.showLog = w.readPage fun m t => Log.page m t .web .first := if_pos h

@[simp] theorem dev_onDev (op : Dev → Dev) (w : Site) : (w.onDev op).dev = op w.dev := rfl

theorem page_clearLog (w : Site) (t : LogType) : (w.onDev (Dev.clearLog t)).page = [] := by
  rw [page, dev_onDev, Dev.clearLog]
  exact (fastClearLog_page w.dev.mem w.dev.log t).1

theorem page_restart (w : Site) : (w.step .restart).page = [] := by
  simp only [page, step, dev_onDev]
  rw [(logInit_page _ powerOn).1, powerOn]

theorem pageNum_clearLog (w : Site) (t : LogType) :
    (w.onDev (Dev.clearLog t)).dev.log.crtWebLogPageNum = w.dev.log.crtWebLogPageNum := by
  rw [dev_onDev, Dev.clearLog]
  exact (fastClearLog_page w.dev.mem w.dev.log t).2

theorem pageNum_restart (w : Site) : (w.step .restart).dev.log.crtWebLogPageNum = 0 := by
  simp only [step, dev_onDev]
  rw [(logInit_page _ powerOn).2, powerOn]

/-- The command whose page a step reads. -/
def reads (w : Site) : SiteEvent → Option PageCmd
  | .getLog c => some c
  | .insert _ .log => if w.page.headD 0 = 0 then some .first else none
  | _ => none

/-- A step reads a page, or it keeps or clears the page that is there. -/
theorem step_cases (w : Site) (ev : SiteEvent) :
    (∃ c, w.reads ev = some c ∧ w.step ev = w.readPage fun m t => Log.page m t .web c) ∨
    (w.reads ev = none ∧ ((w.step ev).page = w.page ∨ (w.step ev).page = []) ∧
      ((w.step ev).dev.log.crtWebLogPageNum = w.dev.log.crtWebLogPageNum ∨
        (w.step ev).dev.log.crtWebLogPageNum = 0)) := by
  cases ev with
  | getLog c => exact Or.inl ⟨c, rfl, rfl⟩
  | insert e t =>
    rw [step]
    cases t with
    | log =>
      by_cases h0 : w.page.headD 0 = 0
      · exact Or.inl ⟨.first, if_pos h0, showLog_of_empty h0⟩
      · have hsame : (w.ssiHandler e .log).1 = w := showLog_of_shown h0
        rw [hsame]
        exact Or.inr ⟨if_neg h0, Or.inl rfl, Or.inl rfl⟩
    | _ => exact Or.inr ⟨rfl, Or.inl rfl, Or.inl rfl⟩
  | clear =>
    rw [step]
    rcases w.ring with _ | t
    · exact Or.inr ⟨rfl, Or.inl rfl, Or.inl rfl⟩
    · exact Or.inr ⟨rfl, Or.inr (page_clearLog w t), Or.inl (pageNum_clearLog w t)⟩
  | clearLog t => exact Or.inr ⟨rfl, Or.inr (page_clearLog w t), Or.inl (pageNum_clearLog w t)⟩
  | restart => exact Or.inr ⟨rfl, Or.inr (page_restart w), Or.inr (pageNum_restart w)⟩
  | logType v | writeLog t alarmFlag => exact Or.inr ⟨rfl, Or.inr rfl, Or.inl rfl⟩
  | other h => exact Or.inr ⟨rfl, Or.inl rfl, Or.inl rfl⟩

theorem inserted_log (e : SsiEnv) (w : Site) : w.inserted (.insert e .log) = w.showLog.page := rfl

/-- What is inserted where a page is read is that page or nothing. -/
theorem reads_cases {c : PageCmd} (h : w.reads ev = some c) :
    (w.inserted ev).length ≤ (w.step ev).page.length ∧ (w.Indexed ev → w.logType.toNat < 5) ∧
      (w.Room ev ↔ rowsLen (w.entries c) ≤ 192) := by
  cases ev with
  | getLog c' =>
    obtain rfl : c' = c := Option.some.inj h
    exact ⟨Nat.zero_le _, id, Iff.rfl⟩
  | insert e t =>
    cases t with
    | log =>
      rw [reads] at h
      split_ifs at h with h0
      obtain rfl : .first = c := Option.some.inj h
      exact ⟨le_rfl, fun hidx => hidx h0, fun hroom => hroom h0, fun hrows _ => hrows⟩
    | _ => exact absurd h (by simp [reads])
  | _ => exact absurd h (by simp [reads])

/-- Where no page is read, the tension values are what can be too long. -/
theorem inserted_iff_room (h : w.reads ev = none) (hshow : w.Showable)
    (hnum : w.dev.log.crtWebLogPageNum < 256) : (w.inserted ev).length ≤ 192 ↔ w.Room ev := by
  have hshort (e : SsiEnv) (t : Tag) (hlog : t ≠ .log) (hadc : t ≠ .adcVals) :
      (w.inserted (.insert e t)).length ≤ 192 := by
    rw [inserted, ssiHandler_of_ne e hlog]
    exact (length_ssiText_le e hnum hlog hadc).trans (by norm_num)
  cases ev with
  | getLog c => exact absurd h (by simp [reads])
  | insert e t =>
    cases t with
    | log =>
      rw [reads] at h
      split_ifs at h with h0
      rw [inserted_log, showLog_of_shown h0]
      exact iff_of_true (length_le_of_showable hshow) fun h => absurd h h0
    | adcVals =>
      have hlen : (w.inserted (.insert e .adcVals)).length = _ := length_getWebAdcValStr w.dev.adc
      rw [hlen, Room]
      omega
    | _ => exact iff_of_true (hshort e _ (by simp) (by simp)) trivial
  | _ => exact iff_of_true (Nat.zero_le _) trivial

/-- One step is exact. -/
theorem step_fits_iff (hshow : w.Showable) (hnum : w.dev.log.crtWebLogPageNum < 256)
    (hidx : w.Indexed ev) :
    w.Fits ev ∧ (w.step ev).Showable ↔ w.Room ev := by
  rw [fits_iff]
  rcases w.step_cases ev with ⟨c, hreads, hstep⟩ | ⟨hreads, hpage, -⟩
  · obtain ⟨htext, hring, hroom⟩ := reads_cases hreads
    rw [hroom, ← length_readPage c (hring hidx), ← hstep]
    exact and_iff_right_of_imp htext.trans
  · have hlen : (w.step ev).page.length ≤ 192 := by
      rcases hpage with hpage | hpage <;> rw [hpage]
      · exact length_le_of_showable hshow
      · exact Nat.zero_le _
    rw [and_iff_left hlen]
    exact inserted_iff_room hreads hshow hnum

/-- The number of the page stays a byte. -/
theorem step_pageNum (hnum : w.dev.log.crtWebLogPageNum < 256) (ev : SiteEvent) :
    (w.step ev).dev.log.crtWebLogPageNum < 256 := by
  rcases w.step_cases ev with ⟨c, -, hstep⟩ | ⟨-, -, hsame | hzero⟩
  · rw [hstep, readPage]
    rcases w.ring with _ | t
    · exact hnum
    · exact page_pageNum_lt c w.dev.log
  · rw [hsame]
    exact hnum
  · rw [hzero]
    norm_num

/-! ### Pages -/

/-- Nine entries always have room. -/
theorem room_of_lt_ten {c : PageCmd} (h : (w.entries c).length < 10) : rowsLen (w.entries c) ≤ 192 := by
  have hle : rowsLen (w.entries c) ≤ 20 * (w.entries c).length := by
    rw [entries]
    rcases w.ring with _ | t
    · exact Nat.zero_le _
    · exact rowsLen_pageEntries c w.dev.log
  omega

/-- Ten entries have it when there is a NUL in one of them. -/
theorem room_iff_of_full {c : PageCmd} (h : ∀ e ∈ w.entries c, (webRow e).length = 20) :
    rowsLen (w.entries c) ≤ 192 ↔ (w.entries c).length < 10 := by
  rw [rowsLen_of_full h]
  omega

/-- Of the requests to `/log.cgi` only `GETLOG` asks for room. -/
theorem logHandler_room {params : CgiParams} (h : findCGIParameter "GETLOG" params = false) (w : Site) :
    ∀ ev ∈ logHandler params, w.Room ev := by
  intro ev hev
  rw [logHandler, h] at hev
  split_ifs at hev with htype hclear hget
  · obtain ⟨p, -, rfl⟩ := Option.map_eq_some_iff.mp (Option.mem_toList.mp hev)
    trivial
  · obtain ⟨p, -, rfl⟩ := List.mem_map.mp hev
    trivial
  · exact hget.elim
  · exact absurd hev List.not_mem_nil

/-! ### Runs -/

/-- What holds wherever the texts have fitted so far. -/
structure Ready (w : Site) : Prop where
  showable : w.Showable
  pageNum : w.dev.log.crtWebLogPageNum < 256

theorem ready_restart (w : Site) : (w.step .restart).Ready := by
  constructor
  · rw [Showable, page_restart]
    exact Nat.succ_le_succ (Nat.zero_le _)
  · rw [pageNum_restart]
    norm_num

/-- From a start on, the texts of a run fit their buffers exactly when every page that is read and every
    table of values has room. -/
theorem run_fits_iff (w : Site) (evs : List SiteEvent) :
    (∀ q ∈ Run.steps step (w.step .restart) evs,
      q.1.Indexed q.2 ∧ q.1.Fits q.2 ∧ (q.1.step q.2).Showable) ↔
    ∀ q ∈ Run.steps step (w.step .restart) evs, q.1.Indexed q.2 ∧ q.1.Room q.2 := by
  refine Run.steps_iff_of Ready (fun v ev => Indexed v ev ∧ Fits v ev ∧ Showable (step v ev))
    (fun v ev => Indexed v ev ∧ Room v ev) ?_ ?_ evs _ (ready_restart w)
  · intro v ev hv h
    exact ⟨h.2.2, step_pageNum hv.pageNum ev⟩
  · intro v ev hv
    exact and_congr_right fun hidx => step_fits_iff hv.showable hv.pageNum hidx

/-! ### Ten entries -/

/-- Entries that are written get into the history. -/
theorem foldl_writeLog {t : LogType} {time : TimeStr} (flag : UInt8) (n : ℕ) {w : Site} {k : ℕ}
    {es : List Entry}
    (htime : w.dev.rtcTempStr = time.bytes) (hwf : WellFormed w.dev.mem w.dev.log t k (es.take 300)) :
    ∃ k', WellFormed ((List.replicate n (.writeLog t flag)).foldl step w).dev.mem
      ((List.replicate n (.writeLog t flag)).foldl step w).dev.log t k'
      ((List.replicate n (time.entry flag) ++ es).take 300) := by
  induction n generalizing w k es with
  | zero => exact ⟨k, hwf⟩
  | succ n ih =>
    have hstep := hwf.writeLog_take time flag
    rw [← htime] at hstep
    obtain ⟨k', hk'⟩ := ih (w := w.step (.writeLog t flag)) htime hstep
    refine ⟨k', ?_⟩
    rw [List.replicate_succ, List.foldl_cons, List.replicate_succ', List.append_assoc]
    exact hk'

/-- They leave no page to be shown. -/
theorem foldl_writeLog_unread (t : LogType) (flag : UInt8) (n : ℕ) {w : Site} (h : w.page = []) :
    ((List.replicate n (.writeLog t flag)).foldl step w).page = [] ∧
      ((List.replicate n (.writeLog t flag)).foldl step w).logType = w.logType := by
  induction n generalizing w with
  | zero => exact ⟨h, rfl⟩
  | succ n ih =>
    rw [List.replicate_succ, List.foldl_cons]
    exact ih (w := w.step (.writeLog t flag)) rfl

theorem firstStart_stored (t : LogType) : Stored Host.firstStart.mem t 0 [] := by
  have hframe (x : ℕ) (hx : 0x70 ≤ x) : Host.firstStart.mem x = (logInit newEeprom powerOn).1 x :=
    (LwipDev.writeNetParas_frame _ _ (by omega)).trans (Dev.storePara_mem Dev.blank (Or.inr hx))
  have hslot (k : ℕ) : 0x100 ≤ slotAddr t k := by
    rw [slotAddr_eq]
    omega
  refine ((erased_newEeprom t).logInit powerOn).toStored.congr (fun x hx _ => hframe x ?_)
    (readPointer_congr (fun x hx _ => hframe x (by omega)) t)
  have := hslot 0
  omega

/-- A new device after ten alarms. -/
def tenAlarms : Site :=
  (List.replicate 10 (SiteEvent.writeLog .FC 1)).foldl step (step ⟨Host.firstStart, 0⟩ .restart)

theorem tenAlarms_unread : tenAlarms.page = [] ∧ tenAlarms.logType = 4 :=
  foldl_writeLog_unread .FC 1 10 (page_restart _)

theorem tenAlarms_wellFormed : ∃ k, WellFormed tenAlarms.dev.mem tenAlarms.dev.log .FC k
    (List.replicate 10 (TimeStr.sample.entry 1)) := by
  have hstart : WellFormed (step ⟨Host.firstStart, 0⟩ .restart).dev.mem
      (step ⟨Host.firstStart, 0⟩ .restart).dev.log .FC 0 (([] : List Entry).take 300) := by
    simp only [step, dev_onDev]
    exact (firstStart_stored .FC).logInit powerOn
  have htime : (step ⟨Host.firstStart, 0⟩ .restart).dev.rtcTempStr = TimeStr.sample.bytes := by
    simp only [step, dev_onDev]
    rfl
  have h := foldl_writeLog 1 10 htime hstart
  rw [List.append_nil, List.take_of_length_le (by rw [List.length_replicate]; norm_num)] at h
  exact h

/-- Ten entries of 19 characters, each with its `#`. -/
theorem length_tenAlarms : tenAlarms.showLog.page.length = 200 := by
  obtain ⟨k, hwf⟩ := tenAlarms_wellFormed
  have hring : tenAlarms.ring = some .FC := ring_eq_some (by rw [tenAlarms_unread.2]; rfl)
  have hpage : tenAlarms.showLog.page =
      (readWebFirstPageLog tenAlarms.dev.mem .FC tenAlarms.dev.log).crtWebPageLogData := by
    rw [showLog_of_empty (by rw [tenAlarms_unread.1]; rfl), readPage, hring]
    rfl
  have hrow : (webRow (TimeStr.sample.entry 1).text).length = 20 := by decide
  rw [hpage, (readWebFirstPageLog_at hwf).length_data, chunk, List.drop_replicate, List.take_replicate,
    List.map_replicate, rowsLen_of_full]
  · rw [List.length_replicate]
    rfl
  · intro e he
    rw [List.eq_of_mem_replicate he, hrow]

/-- The first page has 200 bytes, so its NUL goes behind `crtWebPageLogData` and eight of its bytes
    go behind `tag_insert`. -/
theorem not_run_fits : ¬∀ (w : Site) (evs : List SiteEvent),
    ∀ q ∈ Run.steps step (w.step .restart) evs, q.1.Indexed q.2 → q.1.Fits q.2 := by
  intro h
  have hmem : (tenAlarms, SiteEvent.insert ⟨0, false, 0⟩ .log) ∈
      Run.steps step (step ⟨Host.firstStart, 0⟩ .restart)
        (List.replicate 10 (.writeLog .FC 1) ++ [.insert ⟨0, false, 0⟩ .log]) := by
    rw [Run.steps_append]
    exact List.mem_append_right _ (List.mem_singleton_self _)
  have hidx : tenAlarms.Indexed (.insert ⟨0, false, 0⟩ .log) := by
    intro _
    rw [tenAlarms_unread.2]
    decide
  have hfits := (h ⟨Host.firstStart, 0⟩ _ _ hmem hidx).inserted
  rw [inserted_log, length_tenAlarms] at hfits
  exact absurd hfits (by decide)

end Site

end VectorFence
