import VectorFence.Web.Control

/-! The parameters of a request, as `extract_uri_parameters` of `httpd.c` takes them out of the URI,
    and the values that the handlers of `httpd_cgi_ssi.c` hand on to `atoi`, `strcmp` and the parsers:

        "/switch.cgi?SWITCH=513&x"  ──▶  ("SWITCH", "513") ("x", NULL)  ──▶  atoi("513")

    A parameter without '=' has the value NULL. A handler reads the values of the names it looks
    for; only `Datetime_CGI_Handler` looks at the pointer first. -/

namespace VectorFence

namespace Web

open CStr

/-- The name and the value of a parameter. -/
abbrev UriParam := CStr × Option CStr

/-- The first '=' ends the name. -/
def splitPair (pair : CStr) : UriParam :=
  (pair.takeWhile (· ≠ 61),
    match pair.dropWhile (· ≠ 61) with
    | [] => none
    | _ :: value => some value)

/-- The loop, with `n` turns left. Only behind the last '&' a blank ends the string. -/
def extractPairs : ℕ → CStr → List UriParam
  | 0, _ => []
  | n + 1, pair =>
      match pair.dropWhile (· ≠ 38) with
      | [] => [splitPair (pair.takeWhile (· ≠ 32))]
      | _ :: rest => splitPair (pair.takeWhile (· ≠ 38)) :: extractPairs n rest

def lwipHttpdMaxCgiParameters : ℕ := 16

/-- `extract_uri_parameters`; the string is NULL when the URI has no '?'. -/
def extractUriParameters : Option CStr → List UriParam
  | none | some [] => []
  | some params => extractPairs lwipHttpdMaxCgiParameters params

inductive CgiHandler where | network | datetime | control | default | log | switch | shutdown
  deriving DecidableEq, Repr

def ppcURLs : List (String × CgiHandler) :=
  [("/network.cgi", .network), ("/datatime.cgi", .datetime), ("/control.cgi", .control),
    ("/default.cgi", .default), ("/log.cgi", .log), ("/switch.cgi", .switch),
    ("/shutdown.cgi", .shutdown)]

/-! ### The values that are read -/

section Reads

variable (ps : List UriParam)

/-- `FindCGIParameter(name, …) != -1`. -/
def finds (name : String) : Bool := ps.any fun p => p.1 = lit name

/-- A loop that reads the values of some names. -/
def readAll (names : List String) : List (Option CStr) :=
  (ps.filter fun p => p.1 ∈ names.map lit).map Prod.snd

/-- A loop that stops at the first parameter of a name. -/
def readFirst (name : String) : List (Option CStr) :=
  ((ps.find? fun p => p.1 = lit name).map Prod.snd).toList

/-- `pcValue[i]`. -/
def pcValue (i : ℕ) : Option CStr := ps[i]?.bind Prod.snd

/-- `Network_CGI_Handler`. -/
def networkReads : List (Option CStr) :=
  if finds ps "LAN" then readAll ps ["MAC", "IP", "SUBMASK", "GATEWEY"] else []

/-- `Datetime_CGI_Handler`; `if( rtcStr != NULL )`. -/
def datetimeReads : List (Option CStr) :=
  if finds ps "DATE" then (readAll ps ["DATE", "TIME"]).filter Option.isSome else []

/-- `Switch_Handler`. -/
def switchReads : List (Option CStr) := if finds ps "SWITCH" then readAll ps ["SWITCH"] else []

/-- A loop that reads the values of a name until one of them resets the system. -/
def readUntil (name : String) (resets : CStr → Bool) : List UriParam → List (Option CStr) × Bool
  | [] => ([], false)
  | p :: ps =>
      if p.1 = lit name then
        if p.2.any resets then ([p.2], true)
        else (p.2 :: (readUntil name resets ps).1, (readUntil name resets ps).2)
      else readUntil name resets ps

/-- `Shutdown_Handler`; `remoteShutdown(0)` resets the system. -/
def shutdownReads : List (Option CStr) :=
  if finds ps "shutdown" then (readUntil "shutdown" (fun v => u8 v = 0) ps).1 else []

/-- `CTR_TYPE` and `CTR_VALUE`; the type is compared with three names, and the value is read for
    each of them. -/
def ctrReads : List (Option CStr) :=
  let ix := ctrIndices (ps.map fun p => (p.1, []))
  pcValue ps ix.1 ::
    if pcValue ps ix.1 ∈ [some (lit "fc"), some (lit "b_bf"), some (lit "a_bf")] then
    [pcValue ps ix.2] else []

/-- `Control_CGI_Handler`; `alarm_reset` is compared with "0" and then with "1". -/
def controlReads : List (Option CStr) :=
  if finds ps "field_num_0" then
    readAll ps ["field_num_0", "alm_dly_0", "sensitivity_0", "field_num_1", "alm_dly_1",
      "sensitivity_1"]
  else if finds ps "alarm_reset" then readAll ps ["alarm_reset"]
  else if finds ps "CTR_TYPE" then ctrReads ps
  else if finds ps "THRESHOLD_UP" then readAll ps ["THRESHOLD_UP", "THRESHOLD_DOWN"]
  else if finds ps "TENSION_MAX_RANGE" then readAll ps ["TENSION_MAX_RANGE", "BASE_AUTO_CALIBRATE_TIME"]
  else if finds ps "zero_reset" then readAll ps ["zero_reset"]
  else if finds ps "base_reset" then readAll ps ["base_reset"]
  else []

/-- `Default_CGI_Handler`; `systemDefault()` resets the system. -/
def defaultReads : List (Option CStr) :=
  let (reads, reset) := if finds ps "DEFAULT" then
    readUntil "DEFAULT" (fun v => v = lit "1") ps else ([], false)
  if reset then reads else reads ++ if finds ps "configcode" then readFirst ps "configcode" else []

/-- `Log_Handler`. -/
def logReads : List (Option CStr) :=
  if finds ps "LOGTYPE" then readFirst ps "LOGTYPE"
  else if finds ps "CLEAR" then readAll ps ["CLEAR"]
  else if finds ps "GETLOG" then readAll ps ["GETLOG"]
  else []

def CgiHandler.reads : CgiHandler → List (Option CStr)
  | .network => networkReads ps
  | .datetime => datetimeReads ps
  | .control => controlReads ps
  | .default => defaultReads ps
  | .log => logReads ps
  | .switch => switchReads ps
  | .shutdown => shutdownReads ps

end Reads

/-- The handler that `http_find_file` finds. -/
def handlerOf (uri : CStr) : Option CgiHandler :=
  (ppcURLs.find? fun u => lit u.1 = uri.takeWhile (· ≠ 63)).map Prod.snd

/-- The part behind the first '?'. -/
def uriParams (uri : CStr) : Option CStr :=
  match uri.dropWhile (· ≠ 63) with
  | [] => none
  | _ :: params => some params

def requestReads (uri : CStr) : List (Option CStr) :=
  ((handlerOf uri).map fun h => h.reads (extractUriParameters (uriParams uri))).getD []

/-! ### A value is NULL where the text has no '=' -/

theorem splitPair_isSome (pair : CStr) : (splitPair pair).2.isSome ↔ 61 ∈ pair := by
  have hdrop : pair.dropWhile (· ≠ 61) = [] ↔ 61 ∉ pair := by
    rw [List.dropWhile_eq_nil_iff]
    constructor
    · intro h hmem
      exact absurd (h 61 hmem) (by decide)
    · rintro h c hc
      simpa using fun hc61 : c = 61 => h (hc61 ▸ hc)
  simp only [splitPair]
  split
  · exact iff_of_false (by simp) (hdrop.mp ‹_›)
  · rename_i heq
    refine iff_of_true rfl (by_contra fun hmem => ?_)
    rw [hdrop.mpr hmem] at heq
    exact absurd heq (by simp)

/-- There are at most sixteen parameters. -/
theorem length_extractPairs (n : ℕ) (pair : CStr) : (extractPairs n pair).length ≤ n := by
  induction n generalizing pair with
  | zero => exact le_rfl
  | succ n ih =>
    rw [extractPairs]
    split
    · exact Nat.le_add_left 1 n
    · exact Nat.succ_le_succ (ih _)

/-! ### The parameters that need a value -/

section Given

variable (ps : List UriParam)

/-- Every parameter with one of the names has a value. -/
def Given (names : List String) : Prop := ∀ p ∈ ps, p.1 ∈ names.map lit → p.2.isSome

def lastParam (name : String) : Option UriParam := ps.reverse.find? fun p => p.1 = lit name

/-- The parameter resets the system. -/
def Resets (name : String) (resets : CStr → Bool) (p : UriParam) : Prop :=
  p.1 = lit name ∧ p.2.any resets

instance (name : String) (resets : CStr → Bool) : DecidablePred (Resets name resets) :=
  fun p => by unfold Resets; infer_instance

/-- The parameters up to the first one that resets the system. -/
def beforeReset (name : String) (resets : CStr → Bool) : List UriParam :=
  ps.takeWhile fun p => ¬Resets name resets p

/-- The names a loop of `Control_CGI_Handler` reads, by the name that the request has. -/
def controlBranches : List (String × List String) :=
  [("field_num_0",
      ["field_num_0", "alm_dly_0", "sensitivity_0", "field_num_1", "alm_dly_1", "sensitivity_1"]),
    ("alarm_reset", ["alarm_reset"]), ("CTR_TYPE", []),
      ("THRESHOLD_UP", ["THRESHOLD_UP", "THRESHOLD_DOWN"]),
    ("TENSION_MAX_RANGE", ["TENSION_MAX_RANGE", "BASE_AUTO_CALIBRATE_TIME"]),
      ("zero_reset", ["zero_reset"]),
    ("base_reset", ["base_reset"])]

/-- The last `CTR_TYPE` has a value, and if it is one of the three the last `CTR_VALUE` has one, or
    without a `CTR_VALUE` the first parameter. -/
def CtrGiven : Prop :=
  ∀ p ∈ lastParam ps "CTR_TYPE", p.2.isSome ∧
    (p.2 ∈ [some (lit "fc"), some (lit "b_bf"), some (lit "a_bf")] →
      ∀ q ∈ (lastParam ps "CTR_VALUE").or ps.head?, q.2.isSome)

/-- The parameters that a handler goes by have values. -/
def CgiHandler.Complete : CgiHandler → Prop
  | .network => finds ps "LAN" → Given ps ["MAC", "IP", "SUBMASK", "GATEWEY"]
  | .datetime => True
  | .control => ∀ b ∈ controlBranches.find? fun b => finds ps b.1,
      Given ps b.2 ∧ (b.1 = "CTR_TYPE" → CtrGiven ps)
  | .default => Given (beforeReset ps "DEFAULT" fun v => v = lit "1") ["DEFAULT"] ∧
      ((∀ p ∈ ps, ¬Resets "DEFAULT" (fun v => v = lit "1") p) →
        ∀ p ∈ ps.find? fun p => p.1 = lit "configcode", p.2.isSome)
  | .log => (∀ p ∈ ps.find? fun p => p.1 = lit "LOGTYPE", p.2.isSome) ∧
      (¬finds ps "LOGTYPE" → Given ps ["CLEAR"] ∧ (¬finds ps "CLEAR" → Given ps ["GETLOG"]))
  | .switch => Given ps ["SWITCH"]
  | .shutdown => Given (beforeReset ps "shutdown" fun v => u8 v = 0) ["shutdown"]

variable {ps}

theorem readAll_iff (names : List String) : none ∉ readAll ps names ↔ Given ps names := by
  rw [readAll, List.mem_map]
  constructor
  · intro h p hp hname
    rw [Option.isSome_iff_ne_none]
    intro hnone
    exact h ⟨p, List.mem_filter.mpr ⟨hp, by simpa using hname⟩, hnone⟩
  · rintro h ⟨p, hp, hnone⟩
    obtain ⟨hmem, hname⟩ := List.mem_filter.mp hp
    have hsome := h p hmem (by simpa using hname)
    rw [hnone] at hsome
    exact absurd hsome (by simp)

theorem readFirst_iff (name : String) :
    none ∉ readFirst ps name ↔ ∀ p ∈ ps.find? fun p => p.1 = lit name, p.2.isSome := by
  rw [readFirst]
  cases ps.find? fun p => p.1 = lit name with
  | none => simp
  | some p =>
    rw [Option.map_some, Option.toList_some, List.mem_singleton]
    constructor
    · intro h q hq
      rw [Option.mem_some_iff] at hq
      rw [← hq]
      exact Option.isSome_iff_ne_none.mpr (Ne.symm h)
    · intro h hnone
      have hsome := h p rfl
      rw [← hnone] at hsome
      exact absurd hsome (by simp)

/-- A name that is not there needs no value. -/
theorem given_of_not_finds {name : String} (h : ¬finds ps name) : Given ps [name] := by
  intro p hp hname
  rw [List.map_singleton, List.mem_singleton] at hname
  exact absurd (List.any_eq_true.mpr ⟨p, hp, by simpa using hname⟩) h

/-! ### The loops that a reset ends -/

variable {name : String} {resets : CStr → Bool}

theorem given_cons {names : List String} {p : UriParam} :
    Given (p :: ps) names ↔ (p.1 ∈ names.map lit → p.2.isSome) ∧ Given ps names := List.forall_mem_cons

theorem beforeReset_cons_of_not {p : UriParam} (h : ¬Resets name resets p) :
    beforeReset (p :: ps) name resets = p :: beforeReset ps name resets :=
  List.takeWhile_cons_of_pos (by simpa using h)

theorem readUntil_iff : none ∉ (readUntil name resets ps).1 ↔
    Given (beforeReset ps name resets) [name] := by
  induction ps with
  | nil => exact iff_of_true List.not_mem_nil fun p hp => absurd hp List.not_mem_nil
  | cons p ps ih =>
    have hhead : p.1 ∈ [name].map lit ↔ p.1 = lit name := by simp
    rw [readUntil]
    by_cases hname : p.1 = lit name
    · by_cases hreset : p.2.any resets
      · have hnil : beforeReset (p :: ps) name resets = [] :=
          List.takeWhile_cons_of_neg (by simpa using (show Resets name resets p from ⟨hname, hreset⟩))
        rw [if_pos hname, if_pos hreset, hnil]
        refine iff_of_true (fun hnone => ?_) fun q hq => absurd hq List.not_mem_nil
        rw [← List.mem_singleton.mp hnone] at hreset
        exact absurd hreset (by simp)
      · rw [if_pos hname, if_neg hreset, beforeReset_cons_of_not fun h => hreset h.2, given_cons, hhead,
          imp_iff_right hname, ← ih, List.mem_cons, not_or, Option.isSome_iff_ne_none]
        exact and_congr_left' ⟨Ne.symm, Ne.symm⟩
    · rw [if_neg hname, beforeReset_cons_of_not fun h => hname h.1, given_cons, hhead, ← ih]
      exact (and_iff_right fun h => absurd h hname).symm

theorem readUntil_reset : (readUntil name resets ps).2 = true ↔ ∃ p ∈ ps, Resets name resets p := by
  induction ps with
  | nil => exact iff_of_false Bool.false_ne_true fun ⟨p, hp, _⟩ => absurd hp List.not_mem_nil
  | cons p ps ih =>
    rw [readUntil, List.exists_mem_cons_iff]
    split_ifs with hname hreset
    · exact iff_of_true rfl (Or.inl ⟨hname, hreset⟩)
    · rw [or_iff_right fun h => hreset h.2]
      exact ih
    · rw [or_iff_right fun h => hname h.1]
      exact ih

/-! ### The handlers -/

theorem lastParam_concat (p : UriParam) :
    lastParam (ps ++ [p]) name = if p.1 = lit name then some p else lastParam ps name := by
  rw [lastParam, List.reverse_concat, List.find?_cons]
  by_cases h : p.1 = lit name
  · simp [h]
  · simp [h, lastParam]

/-- An index that goes to the last parameter of a name begins at the first parameter. -/
theorem getElem?_lastIndex (ix : List UriParam → ℕ) (hnil : ix [] = 0)
    (hconcat : ∀ ps p, ix (ps ++ [p]) = if p.1 = lit name then ps.length else ix ps)
    (ps : List UriParam) :
    ps[ix ps]? = (lastParam ps name).or ps.head? := by
  induction ps using List.reverseRecOn with
  | nil => rfl
  | append_singleton ps p ih =>
    rw [hconcat, lastParam_concat]
    split_ifs with h
    · rw [List.getElem?_concat_length, Option.some_or]
    · cases ps with
      | nil => rw [hnil]; rfl
      | cons q qs =>
        obtain ⟨r, hr⟩ : ∃ r, (q :: qs)[ix (q :: qs)]? = some r := by
          rw [ih, List.head?_cons]
          cases lastParam (q :: qs) name <;> exact ⟨_, rfl⟩
        rw [List.getElem?_append_left (List.getElem?_eq_some_iff.mp hr).1, ih]
        rfl

theorem ctrIndices_concat (params : CgiParams) (kv : CStr × CStr) : ctrIndices (params ++ [kv]) =
    if kv.1 = lit "CTR_TYPE" then (params.length, (ctrIndices params).2)
    else if kv.1 = lit "CTR_VALUE" then ((ctrIndices params).1, params.length)
    else ctrIndices params := by
  simp only [ctrIndices, List.zipIdx_append, List.foldl_append, List.zipIdx_cons, List.zipIdx_nil,
    List.foldl_cons, List.foldl_nil, Nat.zero_add]

theorem pcValue_ctrType : pcValue ps (ctrIndices (ps.map fun p => (p.1, []))).1 =
    ((lastParam ps "CTR_TYPE").or ps.head?).bind Prod.snd := by
  refine congrArg (fun o : Option UriParam => o.bind Prod.snd)
    (getElem?_lastIndex (fun ps => (ctrIndices (ps.map fun p => (p.1, []))).1) rfl (fun ps p => ?_) ps)
  rw [List.map_append, List.map_singleton, ctrIndices_concat]
  split_ifs <;> simp

theorem pcValue_ctrValue : pcValue ps (ctrIndices (ps.map fun p => (p.1, []))).2 =
    ((lastParam ps "CTR_VALUE").or ps.head?).bind Prod.snd := by
  refine congrArg (fun o : Option UriParam => o.bind Prod.snd)
    (getElem?_lastIndex (fun ps => (ctrIndices (ps.map fun p => (p.1, []))).2) rfl (fun ps p => ?_) ps)
  rw [List.map_append, List.map_singleton, ctrIndices_concat]
  split_ifs with htype hvalue
  · simp only at htype
    rw [htype] at hvalue
    exact absurd hvalue (by decide)
  · rfl
  · simp
  · rfl

theorem ctrReads_iff (h : finds ps "CTR_TYPE") : none ∉ ctrReads ps ↔ CtrGiven ps := by
  obtain ⟨p, hp⟩ : ∃ p, lastParam ps "CTR_TYPE" = some p := by
    rw [← Option.isSome_iff_exists, lastParam, List.find?_isSome]
    simpa [finds] using h
  have hne : ps ≠ [] := by
    rintro rfl
    exact absurd h (by decide)
  obtain ⟨q, hq⟩ : ∃ q, (lastParam ps "CTR_VALUE").or ps.head? = some q := by
    cases ps with
    | nil => exact absurd rfl hne
    | cons p ps => cases lastParam (p :: ps) "CTR_VALUE" <;> exact ⟨_, rfl⟩
  simp only [ctrReads, CtrGiven, pcValue_ctrType, pcValue_ctrValue, hp, hq, Option.some_or,
    Option.bind_some,
    Option.mem_some_iff, forall_eq']
  rw [List.mem_cons, not_or, Option.isSome_iff_ne_none]
  refine and_congr ⟨Ne.symm, Ne.symm⟩ ?_
  split_ifs with htype
  · rw [imp_iff_right htype, List.mem_singleton, Option.isSome_iff_ne_none]
    exact ⟨Ne.symm, Ne.symm⟩
  · exact iff_of_true List.not_mem_nil fun h => absurd h htype

theorem controlReads_iff : none ∉ controlReads ps ↔ CgiHandler.Complete ps .control := by
  have hloop (name : String) (names : List String) (hname : name ≠ "CTR_TYPE") :
      none ∉ readAll ps names ↔ ∀ b ∈ some (name, names), Given ps b.2 ∧
      (b.1 = "CTR_TYPE" → CtrGiven ps) := by
    rw [readAll_iff]
    constructor
    · intro h b hb
      rw [Option.mem_some_iff] at hb
      subst hb
      exact ⟨h, fun hn => absurd hn hname⟩
    · intro h
      exact (h _ rfl).1
  rw [CgiHandler.Complete, controlReads]
  simp only [controlBranches, List.find?_cons, List.find?_nil]
  cases finds ps "field_num_0" with
  | true => exact hloop "field_num_0" _ (by decide)
  | false =>
  cases finds ps "alarm_reset" with
  | true => exact hloop "alarm_reset" _ (by decide)
  | false =>
  cases hctr : finds ps "CTR_TYPE" with
  | true =>
    refine (ctrReads_iff hctr).trans ⟨fun h b hb => ?_, fun h => (h _ rfl).2 rfl⟩
    rw [Option.mem_some_iff] at hb
    subst hb
    exact ⟨fun p _ hname => absurd hname List.not_mem_nil, fun _ => h⟩
  | false =>
  cases finds ps "THRESHOLD_UP" with
  | true => exact hloop "THRESHOLD_UP" _ (by decide)
  | false =>
  cases finds ps "TENSION_MAX_RANGE" with
  | true => exact hloop "TENSION_MAX_RANGE" _ (by decide)
  | false =>
  cases finds ps "zero_reset" with
  | true => exact hloop "zero_reset" _ (by decide)
  | false =>
  cases finds ps "base_reset" with
  | true => exact hloop "base_reset" _ (by decide)
  | false => exact iff_of_true List.not_mem_nil fun b hb => absurd hb (by simp)

theorem not_resets_of_not_finds (h : ¬finds ps name) : ∀ p ∈ ps, ¬Resets name resets p := by
  intro p hp hresets
  exact h (List.any_eq_true.mpr ⟨p, hp, by simpa using hresets.1⟩)

theorem beforeReset_subset : ∀ p ∈ beforeReset ps name resets, p ∈ ps :=
  fun _ hp => List.takeWhile_subset _ hp

theorem Given.mono {ps' : List UriParam} {names : List String} (h : Given ps names)
    (hsub : ∀ p ∈ ps', p ∈ ps) :
    Given ps' names := fun p hp hname => h p (hsub p hp) hname

theorem find?_of_not_finds (h : ¬finds ps name) : (ps.find? fun p => p.1 = lit name) = none := by
  rw [List.find?_eq_none]
  intro p hp hname
  exact h (List.any_eq_true.mpr ⟨p, hp, hname⟩)

theorem firstReads_iff : none ∉ (if finds ps name then readFirst ps name else []) ↔
    ∀ p ∈ ps.find? fun p => p.1 = lit name, p.2.isSome := by
  split_ifs with h
  · exact readFirst_iff name
  · rw [find?_of_not_finds h]
    exact iff_of_true List.not_mem_nil fun p hp => absurd hp (by simp)

/-- What the first loop of `Default_CGI_Handler` reads, and whether there is a second one. -/
theorem untilReads_iff (ps : List UriParam) (name : String) (resets : CStr → Bool) :
    (none ∉ (if finds ps name then readUntil name resets ps else ([], false)).1 ↔
      Given (beforeReset ps name resets) [name]) ∧
    ((if finds ps name then readUntil name resets ps else ([], false)).2 = true ↔
      ∃ p ∈ ps, Resets name resets p) := by
  split_ifs with h
  · exact ⟨readUntil_iff, readUntil_reset⟩
  · refine ⟨iff_of_true List.not_mem_nil ((given_of_not_finds h).mono beforeReset_subset),
      iff_of_false (by simp) ?_⟩
    rintro ⟨p, hp, hresets⟩
    exact not_resets_of_not_finds h p hp hresets

theorem defaultReads_iff : none ∉ defaultReads ps ↔ CgiHandler.Complete ps .default := by
  obtain ⟨hfirst, hreset⟩ := untilReads_iff ps "DEFAULT" fun v => v = lit "1"
  rw [CgiHandler.Complete, ← hfirst, ← firstReads_iff, defaultReads]
  generalize (if finds ps "DEFAULT" then readUntil "DEFAULT" (fun v => v = lit "1") ps else
    ([], false)) = r
    at hreset ⊢
  by_cases h : r.2 = true
  · simp only [h, if_true]
    refine (and_iff_left fun hno => ?_).symm
    obtain ⟨p, hp, hresets⟩ := hreset.mp h
    exact absurd hresets (hno p hp)
  · have hno : ∀ p ∈ ps, ¬Resets "DEFAULT" (fun v => v = lit "1") p :=
      fun p hp hresets => h (hreset.mpr ⟨p, hp, hresets⟩)
    simp only [if_neg h]
    rw [imp_iff_right hno, List.mem_append, not_or]

/-- A handler reads no NULL exactly when the parameters it goes by have values. -/
theorem reads_iff (c : CgiHandler) : none ∉ c.reads ps ↔ c.Complete ps := by
  cases c with
  | network =>
    simp only [CgiHandler.reads, networkReads, CgiHandler.Complete]
    split_ifs with h
    · rw [readAll_iff, imp_iff_right h]
    · exact iff_of_true List.not_mem_nil fun hn => absurd hn h
  | datetime =>
    simp only [CgiHandler.reads, datetimeReads, CgiHandler.Complete, iff_true]
    split_ifs with h
    · intro hmem
      exact absurd (List.mem_filter.mp hmem).2 (by simp)
    · exact List.not_mem_nil
  | control => exact controlReads_iff
  | default => exact defaultReads_iff
  | log =>
    simp only [CgiHandler.reads, logReads, CgiHandler.Complete]
    split_ifs with htype hclear hget
    · rw [readFirst_iff]
      exact (and_iff_left fun hn => absurd htype hn).symm
    · rw [readAll_iff, find?_of_not_finds htype, imp_iff_right htype, and_iff_right fun p hp =>
        absurd hp (by simp)]
      exact (and_iff_left fun hn => absurd hclear hn).symm
    · rw [readAll_iff, find?_of_not_finds htype, imp_iff_right htype, imp_iff_right hclear,
        and_iff_right fun p hp => absurd hp (by simp)]
      exact (and_iff_right (given_of_not_finds hclear)).symm
    · refine iff_of_true List.not_mem_nil ⟨fun p hp => ?_, fun _ => ⟨given_of_not_finds hclear, fun _ =>
        given_of_not_finds hget⟩⟩
      rw [find?_of_not_finds htype] at hp
      exact absurd hp (by simp)
  | switch =>
    simp only [CgiHandler.reads, switchReads, CgiHandler.Complete]
    split_ifs with h
    · exact readAll_iff _
    · exact iff_of_true List.not_mem_nil (given_of_not_finds h)
  | shutdown =>
    simp only [CgiHandler.reads, shutdownReads, CgiHandler.Complete]
    split_ifs with h
    · exact readUntil_iff
    · exact iff_of_true List.not_mem_nil ((given_of_not_finds h).mono beforeReset_subset)

end Given

/-- A request makes its handler read no NULL exactly when the parameters that the handler goes by
    have values. -/
theorem requestReads_iff (uri : CStr) : none ∉ requestReads uri ↔
    ∀ c ∈ handlerOf uri, c.Complete (extractUriParameters (uriParams uri)) := by
  rw [requestReads]
  cases handlerOf uri with
  | none => exact iff_of_true List.not_mem_nil fun c hc => absurd hc (by simp)
  | some c =>
    rw [Option.map_some, Option.getD_some, reads_iff]
    simp only [Option.mem_some_iff, forall_eq']

/-- `atoi(NULL)`. -/
theorem not_requestReads : ¬ ∀ uri : CStr, none ∉ requestReads uri := by
  intro h
  exact h (lit "/switch.cgi?SWITCH") (by decide)

end Web

end VectorFence
