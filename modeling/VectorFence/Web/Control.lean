import VectorFence.CString
import VectorFence.Station

/-! `Control_CGI_Handler` of `httpd_cgi_ssi.c`, the request `/control.cgi`. The first of seven parameter
    names that the request has tells what it asks for:

        field_num_0   alarm_reset   CTR_TYPE   THRESHOLD_UP   TENSION_MAX_RANGE   zero_reset   base_reset

    All parameters are then gone through in their order, so of two with one name the later one counts.
    Values are converted by `atoi` and cut to the width of the variable. -/

namespace VectorFence

/-- The names and values of a request. -/
abbrev CgiParams := List (CStr × CStr)

/-- The pages a handler can answer with. -/
inductive WebPage where | control | state
  deriving DecidableEq, Repr

namespace Dev

/-- `updateZeroVal` with any number. -/
def requestZero (fieldIndex : UInt8) (d : Dev) : Dev :=
  { d with adc := { d.adc with calibratingFlag := 0x00 ||| fieldIndex } }

/-- `updateBaseVal` with any number. -/
def requestBase (fieldIndex : UInt8) (d : Dev) : Dev :=
  { d with adc := { d.adc with calibratingFlag := 0x10 ||| fieldIndex } }

end Dev

namespace Web

open CStr

/-- `FindCGIParameter(name, …) != -1`. -/
def findCGIParameter (name : String) (params : CgiParams) : Bool := params.any fun p => p.1 = lit name

/-- One turn of the loop over the zone parameters; nothing is checked, nothing is stored. -/
def assignPara (p : FieldPara) (kv : CStr × CStr) : FieldPara :=
  let (name, value) := kv
  if name = lit "field_num_0" then { p with fieldNum := Function.update p.fieldNum 0 (u8 value) }
  else if name = lit "alm_dly_0" then
    { p with alarmDelay := Function.update p.alarmDelay 0 (u16 value) }
  else if name = lit "sensitivity_0" then
    { p with alarmSensitivity := Function.update p.alarmSensitivity 0 (u16 value).toUInt8 }
  else if name = lit "field_num_1" then { p with fieldNum := Function.update p.fieldNum 1 (u8 value) }
  else if name = lit "alm_dly_1" then
    { p with alarmDelay := Function.update p.alarmDelay 1 (u16 value) }
  else if name = lit "sensitivity_1" then
    { p with alarmSensitivity := Function.update p.alarmSensitivity 1 (u16 value).toUInt8 }
  else p

def setZonePara (params : CgiParams) (d : Dev) : Dev :=
  Dev.storePara { d with para := params.foldl assignPara d.para }

def resetAlarms (params : CgiParams) (d : Dev) : Dev :=
  params.foldl (fun d kv =>
    if kv.1 = lit "alarm_reset" ∧ kv.2 = lit "0" then d.resetSiren 0
    else if kv.1 = lit "alarm_reset" ∧ kv.2 = lit "1" then d.resetSiren 1
    else d) d

/-- `ctrTypIndex` and `ctrValIndex` after the loop; both begin at 0. -/
def ctrIndices (params : CgiParams) : ℕ × ℕ :=
  params.zipIdx.foldl (fun ix kv =>
    if kv.1.1 = lit "CTR_TYPE" then (kv.2, ix.2)
    else if kv.1.1 = lit "CTR_VALUE" then (ix.1, kv.2)
    else ix) (0, 0)

/-- `pcValue[i]`. -/
def valueAt (params : CgiParams) (i : ℕ) : CStr := (params[i]?.map Prod.snd).getD []

/-- What a `CTR_TYPE` request switches. -/
inductive Ctr where
  | fangChai
  | push (f : Zone)
  deriving DecidableEq, Repr

def ctrType (params : CgiParams) : Option Ctr :=
  let typ := valueAt params (ctrIndices params).1
  if typ = lit "fc" then some .fangChai
  else if typ = lit "b_bf" then some (.push 1)
  else if typ = lit "a_bf" then some (.push 0)
  else none

/-- `atoi(pcValue[ctrValIndex]) == 1`. -/
def ctrValue (params : CgiParams) : Switch :=
  if atoi (valueAt params (ctrIndices params).2) = 1 then .on else .off

def control (params : CgiParams) (d : Dev) : Dev :=
  match ctrType params with
  | some .fangChai => d.fangChai (ctrValue params)
  | some (.push f) => d.push f (ctrValue params)
  | none => d

def setThresholds (params : CgiParams) (d : Dev) : Dev :=
  params.foldl (fun d kv =>
    let d := if kv.1 = lit "THRESHOLD_UP" then d.setAlmThrdUpDif (u16 kv.2) else d
    if kv.1 = lit "THRESHOLD_DOWN" then d.setAlmThrdDwDif (u16 kv.2) else d) d

def setRange (params : CgiParams) (d : Dev) : Dev :=
  params.foldl (fun d kv =>
    let d := if kv.1 = lit "TENSION_MAX_RANGE" then d.setTensionMaxRange (u16 kv.2) else d
    if kv.1 = lit "BASE_AUTO_CALIBRATE_TIME" then d.setBaseAutoCalibrateTime (u16 kv.2) else d) d

def resetZero (params : CgiParams) (d : Dev) : Dev :=
  params.foldl (fun d kv => if kv.1 = lit "zero_reset" then d.requestZero (u8 kv.2) else d) d

def resetBase (params : CgiParams) (d : Dev) : Dev :=
  params.foldl (fun d kv => if kv.1 = lit "base_reset" then d.requestBase (u8 kv.2) else d) d

def controlCGIHandler (params : CgiParams) (d : Dev) : Dev × WebPage :=
  if findCGIParameter "field_num_0" params then (setZonePara params d, .control)
  else if findCGIParameter "alarm_reset" params then (resetAlarms params d, .control)
  else if findCGIParameter "CTR_TYPE" params then (control params d, .control)
  else if findCGIParameter "THRESHOLD_UP" params then (setThresholds params d, .control)
  else if findCGIParameter "TENSION_MAX_RANGE" params then (setRange params d, .control)
  else if findCGIParameter "zero_reset" params then (resetZero params d, .state)
  else if findCGIParameter "base_reset" params then (resetBase params d, .state)
  else (d, .control)

/-! ### The later of two parameters with one name -/

/-- The value of the last parameter with a name. -/
def lastValue (name : String) (params : CgiParams) : Option CStr :=
  (params.reverse.find? fun kv => kv.1 = lit name).map Prod.snd

theorem lastValue_concat (name : String) (params : CgiParams) (kv : CStr × CStr) :
    lastValue name (params ++ [kv]) = if kv.1 = lit name then some kv.2 else lastValue name params := by
  rw [lastValue, List.reverse_concat, List.find?_cons]
  by_cases h : kv.1 = lit name
  · simp [h]
  · simp [h, lastValue]

/-- A variable that the parameters with one name set has the value of the last of them after a loop. -/
theorem foldl_lastValue {σ β : Type} (name : String) (get : σ → β) (val : CStr → β)
    {op : σ → CStr × CStr → σ}
    (hop : ∀ s kv, get (op s kv) = if kv.1 = lit name then val kv.2 else get s)
    (params : CgiParams) (s : σ) :
    get (params.foldl op s) = ((lastValue name params).map val).getD (get s) := by
  induction params using List.reverseRecOn with
  | nil => rfl
  | append_singleton params kv ih =>
    rw [List.foldl_append, List.foldl_cons, List.foldl_nil, hop, lastValue_concat]
    split_ifs with h
    · rfl
    · exact ih

/-- The three kinds of zone parameters. -/
inductive ParaKind where | num | delay | sensitivity
  deriving DecidableEq, Repr

def paraName : ParaKind → Zone → String
  | .num, i => if i = 0 then "field_num_0" else "field_num_1"
  | .delay, i => if i = 0 then "alm_dly_0" else "alm_dly_1"
  | .sensitivity, i => if i = 0 then "sensitivity_0" else "sensitivity_1"

/-- The effect of a parameter with one of the six names. -/
def putPara (a : ParaKind) (i : Zone) (value : CStr) (p : FieldPara) : FieldPara :=
  match a with
  | .num => { p with fieldNum := Function.update p.fieldNum i (u8 value) }
  | .delay => { p with alarmDelay := Function.update p.alarmDelay i (u16 value) }
  | .sensitivity =>
      { p with alarmSensitivity := Function.update p.alarmSensitivity i (u16 value).toUInt8 }

theorem lit_paraName_inj {a b : ParaKind} {i j : Zone} :
    lit (paraName a i) = lit (paraName b j) ↔ a = b ∧ i = j := by
  cases a <;> cases b <;> revert i j <;> decide

section AssignPara

variable (p : FieldPara) (value : CStr)

theorem assignPara_name (a : ParaKind) (i : Zone) :
    assignPara p (lit (paraName a i), value) = putPara a i value p := by
  cases a <;> rcases zone_cases i with rfl | rfl <;> rfl

theorem assignPara_other {name : CStr} (h : ∀ a i, name ≠ lit (paraName a i)) :
    assignPara p (name, value) = p := by
  simp only [assignPara]
  split_ifs with h0 h1 h2 h3 h4 h5
  · exact absurd h0 (h .num 0)
  · exact absurd h1 (h .delay 0)
  · exact absurd h2 (h .sensitivity 0)
  · exact absurd h3 (h .num 1)
  · exact absurd h4 (h .delay 1)
  · exact absurd h5 (h .sensitivity 1)
  · rfl

/-- A variable that only the parameters of one kind set. -/
theorem assignPara_get {β : Type} (get : FieldPara → β) {a : ParaKind} {i : Zone} {val : CStr → β}
    (hput : ∀ b j p v, get (putPara b j v p) = if b = a ∧ j = i then val v else get p)
    (p : FieldPara) (kv : CStr × CStr) : get (assignPara p kv) =
      if kv.1 = lit (paraName a i) then val kv.2 else get p := by
  obtain ⟨name, value⟩ := kv
  by_cases hname : ∃ b j, name = lit (paraName b j)
  · obtain ⟨b, j, rfl⟩ := hname
    rw [assignPara_name, hput]
    exact if_congr lit_paraName_inj.symm rfl rfl
  · push Not at hname
    rw [assignPara_other p value hname, if_neg (hname a i)]

/-- After the loop it has the value of the last parameter with its name. -/
theorem foldl_assignPara {β : Type} (get : FieldPara → β) {a : ParaKind} {i : Zone} {val : CStr → β}
    (hput : ∀ b j p v, get (putPara b j v p) = if b = a ∧ j = i then val v else get p)
    (p : FieldPara) (params : CgiParams) : get (params.foldl assignPara p) =
      ((lastValue (paraName a i) params).map val).getD (get p) :=
  foldl_lastValue (paraName a i) get val (assignPara_get get hput) params p

end AssignPara

section Fold

variable (p : FieldPara) (params : CgiParams) (i : Zone)

theorem foldl_fieldNum : (params.foldl assignPara p).fieldNum i =
    ((lastValue (paraName .num i) params).map u8).getD (p.fieldNum i) := by
  refine foldl_assignPara (fun p => p.fieldNum i) (fun b j p v => ?_) p params
  cases b <;> simp [putPara, Function.update_apply, eq_comm]

theorem foldl_alarmDelay : (params.foldl assignPara p).alarmDelay i =
    ((lastValue (paraName .delay i) params).map u16).getD (p.alarmDelay i) := by
  refine foldl_assignPara (fun p => p.alarmDelay i) (fun b j p v => ?_) p params
  cases b <;> simp [putPara, Function.update_apply, eq_comm]

theorem foldl_alarmSensitivity : (params.foldl assignPara p).alarmSensitivity i =
    ((lastValue (paraName .sensitivity i) params).map fun v => (u16 v).toUInt8).getD
      (p.alarmSensitivity i) := by
  refine foldl_assignPara (fun p => p.alarmSensitivity i) (fun b j p v => ?_) p params
  cases b <;> simp [putPara, Function.update_apply, eq_comm]

end Fold

end Web

end VectorFence
