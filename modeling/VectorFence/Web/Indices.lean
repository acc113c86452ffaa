import Mathlib.Data.Nat.Bitwise
import VectorFence.Calibration
import VectorFence.Log.Accesses
import VectorFence.Requests
import VectorFence.Web.Insert

/-! What becomes of the numbers in a request. Two of them go far:

        LOGTYPE=…                  ──▶ logType ──▶ the arrays and the addresses of log.c
        zero_reset=…, base_reset=… ──▶ calibrating_flag ──▶ bit 0, the zone; bit 7, the samples are complete

    Neither is checked, so each is what is left of it in eight bits. The requests are taken apart
    into the calls they make (`WebInput.calls`), between which the log is read by pages and by the
    panel, written to and cleared, the calibration goes on and everything else may change. -/

namespace VectorFence

open CStr Log

/-- The name of the parameter that asks for a calibration. -/
def Target.param : Target → String
  | .zero => "zero_reset"
  | .base => "base_reset"

/-- `updateZeroVal` and `updateBaseVal`, with any number. -/
def Dev.request : Target → UInt8 → Dev → Dev
  | .zero => Dev.requestZero
  | .base => Dev.requestBase

namespace Web

/-- The calibration that a request to `/control.cgi` asks for. -/
def calibration (params : CgiParams) : Option Target :=
  if findCGIParameter "field_num_0" params then none
  else if findCGIParameter "alarm_reset" params then none
  else if findCGIParameter "CTR_TYPE" params then none
  else if findCGIParameter "THRESHOLD_UP" params then none
  else if findCGIParameter "TENSION_MAX_RANGE" params then none
  else if findCGIParameter "zero_reset" params then some .zero
  else if findCGIParameter "base_reset" params then some .base
  else none

/-- What a request to `/control.cgi` does that asks for none. -/
def settings (params : CgiParams) (d : Dev) : Dev :=
  if findCGIParameter "field_num_0" params then setZonePara params d
  else if findCGIParameter "alarm_reset" params then resetAlarms params d
  else if findCGIParameter "CTR_TYPE" params then control params d
  else if findCGIParameter "THRESHOLD_UP" params then setThresholds params d
  else if findCGIParameter "TENSION_MAX_RANGE" params then setRange params d
  else d

end Web

/-- What the requests call, and what goes on besides. A `SiteEvent.other` changes everything but the
    logs. -/
inductive WebCall where
  | site (ev : SiteEvent)
  | settings (params : CgiParams)
  | calibrate (target : Target) (fieldIndex : UInt8)
  | calibrating (r : Readings)
  | lcdPage (t : LogType) (c : PageCmd)
  | clock (time : TimeStr)

/-- What comes from outside. -/
inductive WebInput where
  | log (params : CgiParams)
  | control (params : CgiParams)
  | insert (e : SsiEnv) (t : Tag)
  | writeLog (t : LogType) (alarmFlag : UInt8)
  | clearLog (t : LogType)
  | lcdPage (t : LogType) (c : PageCmd)
  | calibrating (r : Readings)
  | clock (time : TimeStr)
  | restart
  | other (h : Host)

namespace Web

def controlCalls (params : CgiParams) : List WebCall :=
  match calibration params with
  | some target =>
      (params.filter fun p => p.1 = lit target.param).map fun p => .calibrate target (u8 p.2)
  | none => [.settings params]

end Web

def WebInput.calls : WebInput → List WebCall
  | .log params => (Web.logHandler params).map .site
  | .control params => Web.controlCalls params
  | .insert e t => [.site (.insert e t)]
  | .writeLog t alarmFlag => [.site (.writeLog t alarmFlag)]
  | .clearLog t => [.site (.clearLog t)]
  | .lcdPage t c => [.lcdPage t c]
  | .calibrating r => [.calibrating r]
  | .clock time => [.clock time]
  | .restart => [.site .restart]
  | .other h => [.site (.other h)]

namespace Site

open Web

/-- Another state of the device with the logs of this one. -/
def keepLogs (h : Host) (w : Site) : Host :=
  h.onPanel fun p => p.onDev fun d =>
    { d with
      mem := fun x => if x < logBlockStartAddr then d.mem x else w.dev.mem x
      log := w.dev.log
      rtcTempStr := w.dev.rtcTempStr }

def call (w : Site) : WebCall → Site
  | .site (.other h) => w.step (.other (w.keepLogs h))
  | .site ev => w.step ev
  | .settings params => w.onDev (settings params)
  | .calibrate target fieldIndex => w.onDev (Dev.request target fieldIndex)
  | .calibrating r => w.onDev (Dev.calibrating r)
  | .lcdPage t c => w.onDev fun d => { d with log := Log.page d.mem t .lcd c d.log }
  | .clock time => w.onDev fun d => { d with rtcTempStr := time.bytes }

/-- The site when a new device has started. -/
def firstStart : Site := step ⟨Host.firstStart, 0⟩ .restart

/-- `field_index` in `calibrating`. -/
def fieldIndex (w : Site) : ℕ := (w.dev.adc.calibratingFlag &&& 0x01).toNat

/-- The log that a call is about, and what it touches in the EEPROM. -/
def logCall (w : Site) : WebCall → Option (LogType × List Access)
  | .site .clear => w.ring.map fun t => (t, clearAccesses w.dev.mem w.dev.log t)
  | .site (.clearLog t) => some (t, clearAccesses w.dev.mem w.dev.log t)
  | .site (.getLog c) => w.ring.map fun t => (t, pageAccesses w.dev.mem t .web c w.dev.log)
  | .site (.insert _ .log) =>
    if w.page.headD 0 = 0 then w.ring.map fun t =>
      (t, pageAccesses w.dev.mem t .web .first w.dev.log) else none
  | .site (.insert _ .logPageTotal) => w.ring.map fun t => (t, [.read (eachTypeLogMaxAddr t) 1])
  | .site (.writeLog t _) => some (t, writeLogAccesses w.dev.log t)
  | .lcdPage t c => some (t, pageAccesses w.dev.mem t .lcd c w.dev.log)
  | _ => none

/-- The log that is shown is one of the five, a log is touched in its own area only, a zone is one
    of the two, and a request leaves it to the timer to say that the samples are complete. -/
structure InBounds (w : Site) (c : WebCall) : Prop where
  logType : w.logType.toNat < 5 ∧ (w.call c).logType.toNat < 5
  own : ∀ t as, w.logCall c = some (t, as) → ∀ a ∈ as, a.Own t
  fieldIndex : w.fieldIndex < 2 ∧ (w.call c).fieldIndex < 2
  request : ∀ target v, c = .calibrate target v → (w.call c).dev.adc.calibratingFlag &&& 0x80 ≠ 0x80

/-- A command for a page starts in the ring of its log, or just past the end it walks away from. -/
def Starts (w : Site) : WebCall → Prop
  | .site (.getLog c) => ∀ t, w.ring = some t → MayStart t c (walkStart t .web c w.dev.log)
  | .lcdPage t c => MayStart t c (walkStart t .lcd c w.dev.log)
  | _ => True

end Site

/-- The numbers are in range. -/
def WebCall.InRange : WebCall → Prop
  | .site (.logType v) => v.toNat < 5
  | .calibrate _ v => v.toNat < 128
  | _ => True

/-- The numbers in a request are in range once they are cut to eight bits. -/
def WebInput.InRange : WebInput → Prop
  | .log params => ∀ p, params.find? (fun p => p.1 = lit "LOGTYPE") = some p → (u8 p.2).toNat < 5
  | .control params =>
    ∀ target, Web.calibration params = some target → ∀ p ∈ params, p.1 = lit target.param →
      (u8 p.2).toNat < 128
  | _ => True

/-! ### Requests and their calls -/

section Requests

open Web

/-- A calibration that is asked for, parameter by parameter. -/
theorem foldl_calibrate (target : Target) (params : CgiParams) (w : Site) :
    ((params.filter fun p => p.1 = lit target.param).map fun p =>
    WebCall.calibrate target (u8 p.2)).foldl
      Site.call w =
      w.onDev fun d => params.foldl (fun d kv =>
        if kv.1 = lit target.param then d.request target (u8 kv.2) else d) d := by
  induction params generalizing w with
  | nil => rfl
  | cons p params ih =>
    by_cases hname : p.1 = lit target.param
    · rw [List.filter_cons_of_pos (by simpa using hname), List.map_cons, List.foldl_cons, ih]
      simp only [List.foldl_cons, if_pos hname]
      rfl
    · rw [List.filter_cons_of_neg (by simpa using hname), ih]
      simp only [List.foldl_cons, if_neg hname]

/-- The handler of `/control.cgi`: a calibration that is asked for, or settings. -/
theorem controlCGIHandler_eq (params : CgiParams) (d : Dev) : (controlCGIHandler params d).1 =
    (calibration params).elim (settings params d) fun target =>
      params.foldl (fun d kv => if kv.1 = lit target.param then d.request target (u8 kv.2) else d)
        d := by
  rw [calibration, controlCGIHandler, settings]
  cases findCGIParameter "field_num_0" params
  case true => rfl
  cases findCGIParameter "alarm_reset" params
  case true => rfl
  cases findCGIParameter "CTR_TYPE" params
  case true => rfl
  cases findCGIParameter "THRESHOLD_UP" params
  case true => rfl
  cases findCGIParameter "TENSION_MAX_RANGE" params
  case true => rfl
  cases findCGIParameter "zero_reset" params
  case true => rfl
  cases findCGIParameter "base_reset" params
  case true => rfl
  rfl

/-- The calls of a request to `/control.cgi` do what its handler does. -/
theorem foldl_controlCalls (params : CgiParams) (w : Site) :
    (controlCalls params).foldl Site.call w = w.onDev fun d => (controlCGIHandler params d).1 := by
  simp only [controlCalls, controlCGIHandler_eq]
  cases calibration params with
  | none => rfl
  | some target => exact foldl_calibrate target params w

/-- The numbers of the calls are those of the request. -/
theorem inRange_iff (i : WebInput) : (∀ c ∈ i.calls, c.InRange) ↔ i.InRange := by
  cases i with
  | log params =>
    rw [WebInput.calls, List.forall_mem_map, WebInput.InRange]
    by_cases htype : findCGIParameter "LOGTYPE" params
    · rw [logHandler, if_pos htype]
      cases params.find? fun p => p.1 = lit "LOGTYPE" with
      | none => simp
      | some p => simp [WebCall.InRange]
    · have hnone : params.find? (fun p => p.1 = lit "LOGTYPE") = none :=
        List.find?_eq_none.mpr fun p hp hname => htype (List.any_eq_true.mpr ⟨p, hp, hname⟩)
      rw [hnone]
      refine iff_of_true (fun ev hev => ?_) (by simp)
      rw [logHandler, if_neg htype] at hev
      split_ifs at hev
      · obtain ⟨p, -, rfl⟩ := List.mem_map.mp hev
        trivial
      · obtain ⟨p, -, hp⟩ := List.mem_filterMap.mp hev
        split_ifs at hp <;> obtain rfl := Option.some.inj hp <;> trivial
      · exact absurd hev List.not_mem_nil
  | control params =>
    rw [WebInput.calls, WebInput.InRange, controlCalls]
    cases calibration params with
    | none => simp [WebCall.InRange]
    | some target =>
      rw [List.forall_mem_map]
      simp only [List.mem_filter, decide_eq_true_eq, WebCall.InRange]
      constructor
      · intro h asked hasked p hp hname
        obtain rfl := Option.some.inj hasked
        exact h p ⟨hp, hname⟩
      · rintro h p ⟨hp, hname⟩
        exact h target rfl p hp hname
  | _ => simp [WebInput.calls, WebCall.InRange, WebInput.InRange]

end Requests

/-! ### What leaves the logs alone -/

/-- The variables of the logs, what is written into them, and the EEPROM from the pointers on. -/
structure SameLogs (d d' : Dev) : Prop where
  log : d'.log = d.log
  rtcTempStr : d'.rtcTempStr = d.rtcTempStr
  mem : ∀ x, logBlockStartAddr ≤ x → d'.mem x = d.mem x

section SameLogs

open Dev Web

variable {d d' d'' : Dev}

theorem SameLogs.refl (d : Dev) : SameLogs d d := ⟨rfl, rfl, fun _ _ => rfl⟩

theorem SameLogs.trans (h : SameLogs d d') (h' : SameLogs d' d'') : SameLogs d d'' :=
  ⟨h'.log.trans h.log, h'.rtcTempStr.trans h.rtcTempStr, fun x hx => (h'.mem x hx).trans (h.mem x hx)⟩

theorem SameLogs.ite {c : Prop} [Decidable c] (h : SameLogs d d') :
    SameLogs d (if c then d' else d) := by
  split_ifs
  · exact h
  · exact .refl d

theorem SameLogs.foldl {op : Dev → CStr × CStr → Dev} (h : ∀ d kv, SameLogs d (op d kv))
    (params : CgiParams)
    (d : Dev) : SameLogs d (params.foldl op d) :=
  Run.foldl_inv (SameLogs d) (fun d' kv hd => hd.trans (h d' kv)) params d (.refl d)

theorem sameLogs_para (d : Dev) (p : FieldPara) : SameLogs d (storePara { d with para := p }) :=
  ⟨rfl, rfl, fun x hx => storePara_mem _ (by rw [logBlockStartAddr] at hx; omega)⟩

theorem sameLogs_control (d : Dev) (a : Alarm) : SameLogs d (storeControlPara { d with alarm := a }) :=
  ⟨rfl, rfl, fun x hx => storeControlPara_mem _ (by rw [logBlockStartAddr] at hx; omega)⟩

theorem sameLogs_thresholds (d : Dev) (a : Alarm) : SameLogs d (storeAlmThrd { d with alarm := a }) :=
  ⟨rfl, rfl, fun x hx => storeAlmThrd_mem _ (by rw [logBlockStartAddr] at hx; omega)⟩

theorem sameLogs_range (d : Dev) (v : UInt16) : SameLogs d (d.setTensionMaxRange v) :=
  ⟨rfl, rfl, fun x hx => d.setTensionMaxRange_mem v (by rw [logBlockStartAddr] at hx; omega)⟩

theorem sameLogs_time (d : Dev) (v : UInt16) : SameLogs d (d.setBaseAutoCalibrateTime v) :=
  ⟨rfl, rfl, fun x hx => d.setBaseAutoCalibrateTime_mem v (by rw [logBlockStartAddr] at hx; omega)⟩

theorem sameLogs_settings (params : CgiParams) (d : Dev) : SameLogs d (settings params d) := by
  rw [settings]
  split_ifs
  · exact sameLogs_para ..
  · refine .foldl (fun d kv => ?_) params d
    split_ifs <;> exact ⟨rfl, rfl, fun _ _ => rfl⟩
  · rw [Web.control]
    rcases ctrType params with _ | _ | f
    · exact .refl d
    · exact sameLogs_control ..
    · exact sameLogs_control ..
  · exact .foldl (fun d kv => (SameLogs.ite (sameLogs_thresholds ..)).trans
      (.ite (sameLogs_thresholds ..))) params d
  · exact .foldl (fun d kv => (SameLogs.ite (sameLogs_range ..)).trans (.ite (sameLogs_time ..)))
      params d
  · exact .refl d

/-- Six values of a zone are stored before the pointers. -/
theorem sameLogs_lines (d : Dev) (a : Adc) {addr : ℕ} (haddr : addr + 12 ≤ 0x50) (v : Line → Int16) :
    SameLogs d { d with adc := a, mem := d.mem.at24cxxWrite addr (lineBytes v) } := by
  have hlen : (lineBytes v).length = 12 := by simp [lineBytes]
  refine ⟨rfl, rfl, fun x hx => Eeprom.write_frame d.mem (by omega) (Or.inr ?_)⟩
  rw [logBlockStartAddr] at hx
  omega

theorem sameLogs_calibrating (r : Readings) (d : Dev) : SameLogs d (d.calibrating r) := by
  have hzero (d : Dev) : SameLogs d d.storeZero := by
    have hf := d.calibratedZone.isLt
    exact sameLogs_lines d _ (by rw [aAdcZeroAddr]; omega) _
  have hbase (d : Dev) : SameLogs d d.storeBase := by
    have hf := d.calibratedZone.isLt
    exact sameLogs_lines d _ (by rw [aAdcBaseAddr]; omega) _
  have hfinish (d : Dev) : SameLogs d d.finish := ⟨rfl, rfl, fun _ _ => rfl⟩
  rw [calibrating]
  by_cases hidle : d.adc.calibratingFlag = 0xFF
  · rw [if_pos hidle]
    exact .refl d
  · rw [if_neg hidle]
    by_cases hdone : d.adc.calibratingFlag &&& 0x80 = 0x80
    · rw [if_pos hdone]
      exact (SameLogs.ite (hzero d)).trans ((SameLogs.ite (hbase _)).trans (hfinish _))
    · rw [if_neg hdone]
      exact ⟨rfl, rfl, fun _ _ => rfl⟩

end SameLogs

/-! ### One call -/

namespace Site

open Web

/-- What every call leaves in order as long as the numbers are in range and pages are read from the
    ring. -/
structure Kept (w : Site) : Prop where
  logType : w.logType.toNat < 5
  pointers : PointersOk w.dev.mem w.dev.log
  placed : Placed w.dev.log
  clock : w.dev.rtcTempStr.length = 19

section Call

variable {w : Site} {c : WebCall}

theorem fieldIndex_lt (w : Site) : w.fieldIndex < 2 := by
  rw [fieldIndex, UInt8.toNat_and]
  exact Nat.lt_succ_of_le Nat.and_le_right

/-- Bit 7 of the flag comes from the number. -/
theorem request_done (target : Target) (v : UInt8) (d : Dev) :
    (d.request target v).adc.calibratingFlag &&& 0x80 = 0x80 ↔ 128 ≤ v.toNat := by
  have hbit (k : UInt8) (hk : k.toNat.testBit 7 = false) :
    (k ||| v) &&& 0x80 = 0x80 ↔ 128 ≤ v.toNat := by
    have hv := v.toNat_lt
    have h80 : (0x80 : UInt8).toNat = 2 ^ 7 := rfl
    have htest : (k ||| v).toNat.testBit 7 = decide (128 ≤ v.toNat) := by
      rw [UInt8.toNat_or, Nat.testBit_or, hk, Bool.false_or, Nat.testBit_eq_decide_div_mod_eq]
      exact decide_eq_decide.mpr (by omega)
    rw [← UInt8.toNat_inj, UInt8.toNat_and, h80, Nat.and_two_pow, htest]
    by_cases h : 128 ≤ v.toNat <;> simp [h]
  cases target with
  | zero => exact hbit 0x00 (by decide)
  | base => exact hbit 0x10 (by decide)

theorem logType_onDev (op : Dev → Dev) (w : Site) : (w.onDev op).logType = w.logType := rfl

theorem logType_readPage (read : Eeprom → LogType → Log → Log) (w : Site) :
    (w.readPage read).logType = w.logType := by
  rw [readPage]
  cases w.ring <;> rfl

theorem logType_showLog (w : Site) : w.showLog.logType = w.logType := by
  rw [showLog]
  split_ifs
  · exact logType_readPage _ w
  · rfl

/-- The request `LOGTYPE` and a restart choose a log; nothing else does. -/
theorem logType_step (ev : SiteEvent) (w : Site) : (w.step ev).logType =
    match ev with
    | .logType v => v
    | .restart => 4
    | _ => w.logType := by
  cases ev with
  | clear =>
    simp only [step]
    cases w.ring with
    | none => rfl
    | some t => exact logType_onDev _ w
  | clearLog t => exact logType_onDev _ w
  | getLog c => exact logType_readPage _ w
  | insert e t =>
    rw [step]
    cases t with
    | log => exact logType_showLog w
    | _ => rfl
  | _ => rfl

theorem logType_call_site (ev : SiteEvent) (w : Site) : (w.call (.site ev)).logType =
    match ev with
    | .logType v => v
    | .restart => 4
    | _ => w.logType := by
  cases ev with
  | other h => exact logType_step (.other (w.keepLogs h)) w
  | _ => exact logType_step _ w

/-- The log that is shown and the flag are in range after a call exactly when its numbers are. -/
theorem inRange_call_iff (h : w.logType.toNat < 5) (c : WebCall) :
    (w.call c).logType.toNat < 5 ∧
      (∀ target v, c = .calibrate target v → (w.call c).dev.adc.calibratingFlag &&& 0x80 ≠ 0x80) ↔
      c.InRange := by
  cases c with
  | calibrate target v =>
    have hdone := request_done target v w.dev
    constructor
    · rintro ⟨-, hflag⟩
      exact not_le.mp fun hle => hflag target v rfl (hdone.mpr hle)
    · intro hv
      refine ⟨h, ?_⟩
      rintro _ _ ⟨⟩ hflag
      exact absurd (hdone.mp hflag) (not_le.mpr hv)
  | site ev =>
    rw [logType_call_site]
    refine (and_iff_left fun target v hc => by cases hc).trans ?_
    cases ev with
    | logType v => exact Iff.rfl
    | restart =>
      have h4 : (4 : UInt8).toNat < 5 := by decide
      exact iff_of_true h4 trivial
    | _ => exact iff_of_true h trivial
  | _ => exact iff_of_true ⟨h, fun target v hc => by cases hc⟩ trivial

/-- A call touches the area of its log alone exactly when a page is read from the ring. -/
theorem own_call_iff (h : w.Kept) (c : WebCall) :
    (∀ t as, w.logCall c = some (t, as) → ∀ a ∈ as, a.Own t) ↔ w.Starts c := by
  have hring : w.ring = some ⟨w.logType.toNat, h.logType⟩ := ring_isSome h.logType
  have hpage (m : Eeprom) (t : LogType) (b : Browser) (c : PageCmd) := 
    page_own_iff (m := m) h.placed (h.pointers.inRing t) b c
  have hone {t : LogType} {as : List Access} {P : Prop} (hiff : (∀ a ∈ as, a.Own t) ↔ P) :
      (∀ t' as', some (t, as) = some (t', as') → ∀ a ∈ as', a.Own t') ↔ P := by
    rw [← hiff]
    constructor
    · intro hall
      exact hall t as rfl
    · rintro hown _ _ ⟨⟩
      exact hown
  have hnone {P : Prop} (hP : P) : (∀ t as, (none : Option (LogType × List Access)) = some (t, as) →
      ∀ a ∈ as, a.Own t) ↔ P := iff_of_true (fun t as hc => by cases hc) hP
  cases c with
  | lcdPage t c => exact hone (hpage _ t .lcd c)
  | site ev =>
    cases ev with
    | clear =>
      rw [logCall, hring]
      exact hone (iff_of_true (clear_own h.pointers _) trivial)
    | clearLog t => exact hone (iff_of_true (clear_own h.pointers t) trivial)
    | writeLog t alarmFlag => exact hone (iff_of_true (writeLog_own h.pointers t) trivial)
    | getLog c =>
      rw [logCall, Starts, hring]
      refine (hone (hpage _ _ .web c)).trans ?_
      simp
    | insert e t =>
      cases t with
      | log =>
        rw [logCall]
        split_ifs
        · rw [hring]
          refine hone ((hpage _ _ .web .first).trans (iff_of_true ?_ trivial))
          exact Or.inl (h.pointers.inRing _)
        · exact iff_of_true (fun t as hc => by cases hc) trivial
      | logPageTotal =>
        rw [logCall, hring]
        exact hone (iff_of_true (by simpa using isLogFull_own _) trivial)
      | _ => exact hnone trivial
    | _ => exact hnone trivial
  | _ => exact hnone trivial

theorem inBounds_iff (h : w.Kept) (c : WebCall) : w.InBounds c ↔ c.InRange ∧ w.Starts c := by
  rw [← inRange_call_iff h.logType, ← own_call_iff h]
  constructor
  · rintro ⟨⟨-, htype⟩, hown, -, hflag⟩
    exact ⟨⟨htype, hflag⟩, hown⟩
  · rintro ⟨⟨htype, hflag⟩, hown⟩
    exact ⟨⟨h.logType, htype⟩, hown, ⟨fieldIndex_lt w, fieldIndex_lt _⟩, hflag⟩

/-! ### Runs -/

theorem Kept.logs {w' : Site} (h : w.Kept) (htype : w'.logType.toNat < 5)
    (hlogs : SameLogs w.dev w'.dev) :
    w'.Kept where
  logType := htype
  pointers := by
    rw [hlogs.log]
    exact h.pointers.congr fun x hx _ => hlogs.mem x hx
  placed := by
    rw [hlogs.log]
    exact h.placed
  clock := by
    rw [hlogs.rtcTempStr]
    exact h.clock

theorem Kept.page (h : w.Kept) {t : LogType} {b : Browser} {c : PageCmd}
    (hstart : MayStart t c (walkStart t b c w.dev.log)) :
    (w.onDev fun d => { d with log := Log.page d.mem t b c d.log }).Kept where
  logType := h.logType
  pointers := by
    intro u
    rw [dev_onDev]
    simp only [page_next]
    exact h.pointers u
  placed := h.placed.page (h.pointers.inRing t) hstart
  clock := h.clock

theorem Kept.readPage (h : w.Kept) {c : PageCmd}
    (hstart : ∀ t, w.ring = some t → MayStart t c (walkStart t .web c w.dev.log)) :
    (w.readPage fun m t => Log.page m t .web c).Kept := by
  have hring := ring_isSome h.logType
  rw [Site.readPage, hring]
  exact h.page (hstart _ hring)

/-- What is in order after a change of the EEPROM and of the variables of the logs. -/
theorem Kept.onLogs (h : w.Kept) {op : Dev → Dev} (hpointers : PointersOk (op w.dev).mem (op w.dev).log)
    (hplaced : Placed (op w.dev).log) (hclock : (op w.dev).rtcTempStr = w.dev.rtcTempStr) :
    (w.onDev op).Kept where
  logType := h.logType
  pointers := hpointers
  placed := hplaced
  clock := (congrArg List.length hclock).trans h.clock

theorem Kept.clear (h : w.Kept) (t : LogType) : (w.onDev (Dev.clearLog t)).Kept := by
  refine h.onLogs ?_ ?_ ?_ <;> simp only [Dev.clearLog]
  · exact (h.pointers.fastClearLog t).1
  · exact h.placed.fastClearLog _ t

theorem Kept.writeLog (h : w.Kept) (t : LogType) (alarmFlag : UInt8) :
    (w.onDev (Dev.writeLog t alarmFlag)).Kept := by
  refine h.onLogs ?_ ?_ ?_ <;> rw [Dev.writeLog]
  · exact h.pointers.writeLog h.clock t alarmFlag
  · exact h.placed.writeLog w.dev.mem t w.dev.rtcTempStr alarmFlag

/-- A restart needs the stored pointers alone. -/
theorem kept_restart (hstored : ∀ t, ∃ k < 300,
    w.dev.mem.at24cxxReadLenByte (logNextWAddr t) 2 = slotAddr t k)
    (hclock : w.dev.rtcTempStr.length = 19) : (w.step .restart).Kept where
  logType := (logType_step .restart w).symm ▸ (by decide : (4 : UInt8).toNat < 5)
  pointers := by
    simp only [step, dev_onDev]
    exact pointersOk_logInit hstored powerOn
  placed := by
    simp only [step, dev_onDev]
    exact placed_powerOn.logInit _
  clock := by
    simp only [step, dev_onDev]
    exact hclock

/-- What is in order stays in order. -/
theorem Kept.call (h : w.Kept) (hrange : c.InRange) (hstart : w.Starts c) : (w.call c).Kept := by
  have htype := ((inRange_call_iff h.logType c).mpr hrange).1
  cases c with
  | settings params => exact h.logs htype (sameLogs_settings params w.dev)
  | calibrating r => exact h.logs htype (sameLogs_calibrating r w.dev)
  | calibrate target v =>
    refine h.logs htype ?_
    cases target <;> exact ⟨rfl, rfl, fun _ _ => rfl⟩
  | lcdPage t c => exact h.page hstart
  | clock time => exact ⟨h.logType, h.pointers, h.placed, time.size⟩
  | site ev =>
    cases ev with
    | logType v => exact ⟨htype, h.pointers, h.placed.congr rfl fun b => by cases b <;> rfl, h.clock⟩
    | clear =>
      change (w.step .clear).Kept
      simp only [step, ring_isSome h.logType]
      exact h.clear _
    | clearLog t => exact h.clear t
    | getLog c => exact h.readPage hstart
    | writeLog t alarmFlag => exact h.writeLog t alarmFlag
    | insert e t =>
      cases t with
      | log =>
        change w.showLog.Kept
        rw [showLog]
        split_ifs
        · exact h.readPage (c := .first) fun t _ => Or.inl (h.pointers.inRing t)
        · exact h
      | _ => exact h
    | restart => exact kept_restart h.pointers.stored h.clock
    | other h' =>
      refine h.logs htype ⟨rfl, rfl, fun x hx => ?_⟩
      exact if_neg (not_lt.mpr hx)

/-- Between starts nothing changes in the areas of the logs but what the call for a log writes. -/
theorem call_unwritten (h : w.Kept) (hc : c ≠ .site .restart) {x : ℕ} (hx : logBlockStartAddr ≤ x)
    (hout : ∀ t as, w.logCall c = some (t, as) → ¬Written as x) :
    (w.call c).dev.mem x = w.dev.mem x := by
  have hring := ring_isSome h.logType
  have hread (read : Eeprom → LogType → Log → Log) : (w.readPage read).dev.mem = w.dev.mem := by
    rw [Site.readPage, hring]
    rfl
  cases c with
  | settings params => exact (sameLogs_settings params w.dev).mem x hx
  | calibrating r => exact (sameLogs_calibrating r w.dev).mem x hx
  | calibrate target v => cases target <;> rfl
  | lcdPage t c | clock time => rfl
  | site ev =>
    cases ev with
    | clear =>
      change (w.step .clear).dev.mem x = _
      simp only [step, hring]
      simp only [dev_onDev, Dev.clearLog]
      exact clear_unwritten h.pointers (hout _ _ (by rw [logCall, hring]; rfl))
    | clearLog t =>
      change (w.onDev (Dev.clearLog t)).dev.mem x = _
      simp only [dev_onDev, Dev.clearLog]
      exact clear_unwritten h.pointers (hout _ _ rfl)
    | writeLog t alarmFlag =>
      change (w.onDev (Dev.writeLog t alarmFlag)).dev.mem x = _
      simp only [dev_onDev, Dev.writeLog]
      exact writeLog_unwritten h.pointers h.clock alarmFlag (hout _ _ rfl)
    | getLog c => exact congrFun (hread _) x
    | insert e t =>
      cases t with
      | log =>
        change w.showLog.dev.mem x = _
        rw [showLog]
        split_ifs
        · exact congrFun (hread _) x
        · rfl
      | _ => rfl
    | restart => exact absurd rfl hc
    | other h' => exact if_neg (not_lt.mpr hx)
    | logType v => rfl

end Call

theorem firstStart_kept : firstStart.Kept :=
  kept_restart (fun t => ⟨0, by norm_num, (firstStart_stored t).stored⟩) rfl

/-- From the first start on, the numbers of the requests stay in bounds exactly when they are in range
    after they are cut to eight bits and every page is read from the ring of its log. -/
theorem requests_inBounds_iff (inputs : List WebInput) :
    (∀ q ∈ Run.steps call firstStart (inputs.flatMap WebInput.calls), q.1.InBounds q.2) ↔
      (∀ i ∈ inputs, i.InRange) ∧
        ∀ q ∈ Run.steps call firstStart (inputs.flatMap WebInput.calls), q.1.Starts q.2 := by
  have hsteps := Run.steps_iff_of Kept InBounds (fun w c => c.InRange ∧ w.Starts c)
    (fun w c hw hc => hw.call ((inBounds_iff hw c).mp hc).1 ((inBounds_iff hw c).mp hc).2)
    (fun w c hw => inBounds_iff hw c) (inputs.flatMap WebInput.calls) firstStart firstStart_kept
  have hrange : (∀ q ∈ Run.steps call firstStart (inputs.flatMap WebInput.calls), q.2.InRange) ↔
      ∀ i ∈ inputs, i.InRange := by
    rw [Run.forall_snd_steps, List.forall_mem_flatMap]
    exact forall₂_congr fun i _ => inRange_iff i
  rw [hsteps, ← hrange, ← forall₂_and]

/-- A sixth log is chosen, and a request says itself that the samples are complete. -/
theorem not_requests_inBounds :
    (¬∀ q ∈ Run.steps call firstStart ([.log [(lit "LOGTYPE", lit "5")]].flatMap WebInput.calls),
      q.1.InBounds q.2) ∧
    ¬∀ q ∈ Run.steps call firstStart ([.control [(lit "zero_reset", lit "128")]].flatMap
      WebInput.calls),
      q.1.InBounds q.2 := by
  have hfirst (i : WebInput) (c : WebCall) (hcalls : i.calls = [c]) (hrange : ¬c.InRange) :
      ¬∀ q ∈ Run.steps call firstStart ([i].flatMap WebInput.calls), q.1.InBounds q.2 := by
    rw [List.flatMap_singleton, hcalls]
    intro h
    exact hrange ((inBounds_iff firstStart_kept c).mp (h _ (List.mem_singleton_self _))).1
  constructor
  · exact hfirst _ (.site (.logType 5)) (by rfl) (by decide : ¬(5 : UInt8).toNat < 5)
  · exact hfirst _ (.calibrate .zero 128) (by rfl) (by decide : ¬(128 : UInt8).toNat < 128)

end Site

end VectorFence
