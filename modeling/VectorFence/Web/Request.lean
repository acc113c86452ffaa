import VectorFence.Web.Send

/-! How `httpd.c` reads a request and finds the file for it. A request may come in pieces: they are
    kept in `hs->req` until its first line is complete.

        "GET /state.shtml HTTP/1.1\r\n…"      the URI ends at the blank
        "GET /state.shtml\r\n"                HTTP/0.9: it ends at the end of the line; no header is sent

    What was received is copied from the pbufs into `httpd_req_buf`, which has 1023 bytes, unless it
    is one pbuf. -/

namespace VectorFence

open CStr

namespace Web

/-- `strnstr`, for a token that is not empty: where it stands in the first `n` bytes, before a NUL. -/
def strnstr (token : CStr) : CStr → ℕ → Option ℕ
  | [], _ => none
  | c :: cs, n =>
      if c = 0 ∨ n < token.length then none
      else if token.isPrefixOf (c :: cs) then some 0
      else (strnstr token cs (n - 1)).map (· + 1)

/-- `strstr(s, ext) != NULL`. -/
def strstr (s ext : CStr) : Bool := decide (ext <:+: s)

def crlf : CStr := [13, 10]
def minReqLen : ℕ := 7
def lwipHttpdReqQueuelen : ℕ := 10
def lwipHttpdMaxReqLength : ℕ := 1023

def gPsDefaultFilenames : List (String × Bool) :=
  [("/index.shtml", true), ("/index.ssi", true), ("/index.shtm", true), ("/index.html", false),
    ("/index.htm", false)]

def gPcSSIExtensions : List String := [".shtml", ".shtm", ".ssi", ".xml"]

variable (fs : List FsdataFile)

/-- The first of some files that can be opened. -/
def openFirst {α : Type*} (name : α → CStr) : List α → FsMemory → Option (FsFile × α) × FsMemory
  | [], mem => (none, mem)
  | x :: xs, mem =>
      match fsOpen fs (name x) mem with
      | (some file, mem) => (some (file, x), mem)
      | (none, mem) => openFirst name xs mem

/-- `http_get_404_file`. -/
def httpGet404File (mem : FsMemory) : Option (FsFile × String) × FsMemory :=
  openFirst fs lit ["/404.html", "/404.htm", "/404.shtml"] mem

/-- `http_init_file`. -/
def httpInitFile (hs : HttpState) (file : Option FsFile) (is09 : Bool) : HttpState :=
  match file with
  | some file =>
      let hs := { hs with
        tagIndex := 0
        tagState := .none
        parsed := 0
        parseLeft := file.data.length
        tagEnd := 0
        handle := some file
        file := 0
        left := file.data.length
        retries := 0 }
      if file.httpHeaderIncluded ∧ is09 then
        match strnstr (crlf ++ crlf) file.data hs.left with
        | some n => hs.move (n + 4)
        | none => hs
      else hs
  | none => { hs with handle := none, file := 0, left := 0, retries := 0 }

variable {C σ : Type*} (net : Net C σ)

/-- A CGI handler runs before the file is opened; it names the file. -/
def runCgi (uri : CStr) (w : σ) : CStr × σ :=
  match handlerOf uri with
  | some h => net.cgiHandler h (extractUriParameters (uriParams uri)) w
  | none => (uri, w)

/-- The file that `http_find_file` opens, and `tag_check` for it. -/
def findFile (uri : CStr) (mem : FsMemory) (w : σ) : (Option FsFile × Bool) × FsMemory × σ :=
  if uri = lit "/" then
    match openFirst fs (fun f => lit f.1) gPsDefaultFilenames mem with
    | (some (file, f), mem) => ((some file, f.2), mem, w)
    | (none, mem) => (((httpGet404File fs mem).1.map Prod.fst, false), (httpGet404File fs mem).2, w)
  else
    let cgi := runCgi net uri w
    match fsOpen fs cgi.1 mem with
    | (some file, mem) =>
        ((some file, gPcSSIExtensions.any fun ext => strstr cgi.1 (lit ext)), mem, cgi.2)
    | (none, mem) =>
        match httpGet404File fs mem with
        | (some (file, uri), mem) =>
            ((some file, gPcSSIExtensions.any fun ext => strstr (lit uri) (lit ext)), mem, cgi.2)
        | (none, mem) => ((none, false), mem, cgi.2)

/-- `http_find_file`. -/
def httpFindFile (hs : HttpState) (uri : CStr) (is09 : Bool) (mem : FsMemory) (w : σ) :
    HttpState × FsMemory × σ :=
  let found := findFile fs net uri mem w
  (httpInitFile { hs with tagCheck := found.1.2 } found.1.1 is09, found.2)

/-- The URI of a first line, and whether the request is HTTP/0.9. Without "GET " in front there is
    none. -/
def requestUri (data : CStr) : Option (CStr × Bool) :=
  if data.take 4 = lit "GET " then
    match strnstr [32] (data.drop 4) (data.length - 4) with
    | some n => some ((data.drop 4).take n, false)
    | none => (strnstr crlf (data.drop 4) (data.length - 4)).map fun n => ((data.drop 4).take n, true)
  else none

/-- What is looked at: the payload of the only pbuf, or the beginning of what the chain holds. -/
def requestData : List CStr → CStr
  | [payload] => payload
  | chain => chain.flatten.take lwipHttpdMaxReqLength

/-- The request is not complete yet, or too long for it. -/
def requestWaits (req : List CStr) : Err :=
  if req.flatten.length ≤ lwipHttpdMaxReqLength ∧ req.length ≤ lwipHttpdReqQueuelen then
    .inprogress else .arg

/-- `http_parse_request`, for the chain `p` of pbufs. `LWIP_HTTPD_SUPPORT_EXTSTATUS` is not set: an
    error has no page. -/
def httpParseRequest (p : List CStr) (hs : HttpState) (mem : FsMemory) (w : σ) :
    Err × HttpState × FsMemory × σ :=
  if hs.handle.isSome then (.use, hs, mem, w)
  else
    let hs := { hs with req := hs.req ++ p }
    let data := requestData hs.req
    if minReqLen ≤ data.length ∧ (strnstr crlf data data.length).isSome then
      if data.take 4 = lit "GET " then
        match requestUri data with
        | some (uri, is09) => (.ok, httpFindFile fs net hs uri is09 mem w)
        | none => (requestWaits hs.req, hs, mem, w)
      else (.arg, hs, mem, w)
    else (requestWaits hs.req, hs, mem, w)

/-- The pbufs of a request one after the other, until one of them completes it. -/
def feedRequest : List (List CStr) → HttpState → FsMemory → σ → Err × HttpState × FsMemory × σ
  | [], hs, mem, w => (.inprogress, hs, mem, w)
  | p :: ps, hs, mem, w =>
      match httpParseRequest fs net p hs mem w with
      | (.inprogress, hs, mem, w) => feedRequest ps hs mem w
      | r => r

/-! ### Where a token stands -/

variable {fs net}

theorem strnstr_eq_none {token : CStr} :
    ∀ {s : CStr} {n : ℕ}, ¬token <:+: s.take n → strnstr token s n = none
  | [], _, _ => rfl
  | c :: cs, n, h => by
      rw [strnstr]
      split_ifs with hend hpre
      · rfl
      · exfalso
        rw [List.isPrefixOf_iff_prefix] at hpre
        have hlen : token.length ≤ n := by omega
        exact h ((List.prefix_take_iff.mpr ⟨hpre, hlen⟩).isInfix)
      · have hrest : ¬token <:+: cs.take (n - 1) := by
          intro hin
          cases n with
          | zero =>
            rw [List.take_zero, List.infix_nil] at hin
            exact hpre (by rw [hin]; rfl)
          | succ m =>
            rw [List.take_succ_cons] at h
            exact h (List.infix_cons hin)
        rw [strnstr_eq_none hrest, Option.map_none]

theorem strnstr_eq_some {token : CStr} (rest : CStr) (hpos : 0 < token.length) (hzero : 0 ∉ token) :
    ∀ {front : CStr} {n : ℕ}, 0 ∉ front →
    (∀ k < front.length, ¬token <+: (front ++ (token ++ rest)).drop k) →
      front.length + token.length ≤ n → strnstr token (front ++ (token ++ rest)) n = some front.length
  | [], n, _, _, hn => by
      obtain ⟨c, cs, htoken⟩ := List.exists_cons_of_length_pos hpos
      have hc : c ≠ 0 := by
        rintro rfl
        exact hzero (by rw [htoken]; exact List.mem_cons_self ..)
      have hpre : token.isPrefixOf (c :: (cs ++ rest)) := by
        rw [List.isPrefixOf_iff_prefix, htoken]
        exact List.prefix_append (c :: cs) rest
      have hlen : ¬(c = 0 ∨ n < token.length) := by
        rw [List.length_nil, Nat.zero_add] at hn
        rintro (h | h)
        · exact hc h
        · omega
      rw [List.nil_append, htoken, List.cons_append, ← htoken, strnstr, if_neg hlen, if_pos hpre]
      rfl
  | c :: cs, n, hfront, hfirst, hn => by
      have hc : c ≠ 0 := fun h => hfront (by rw [h]; exact List.mem_cons_self ..)
      have hlen : ¬(c = 0 ∨ n < token.length) := by
        rw [List.length_cons] at hn
        rintro (h | h)
        · exact hc h
        · omega
      have hpre : ¬token.isPrefixOf (c :: (cs ++ (token ++ rest))) := by
        rw [List.isPrefixOf_iff_prefix]
        exact hfirst 0 (by simp)
      have hfirst' : ∀ k < cs.length, ¬token <+: (cs ++ (token ++ rest)).drop k := fun k hk => by
        simpa using hfirst (k + 1) (by simpa using hk)
      have hrec := strnstr_eq_some rest hpos hzero (fun h => hfront (List.mem_cons_of_mem _ h)) hfirst'
        (show cs.length + token.length ≤ n - 1 by rw [List.length_cons] at hn; omega)
      rw [List.cons_append, strnstr, if_neg hlen, if_neg hpre, hrec]
      rfl

theorem strnstr_blank {uri rest : CStr} {n : ℕ} (hblank : 32 ∉ uri) (hzero : 0 ∉ uri)
    (hn : uri.length < n) :
    strnstr [32] (uri ++ (32 :: rest)) n = some uri.length := by
  refine strnstr_eq_some rest (show 0 < [(32 : UInt8)].length by simp) (by simp) hzero
    (fun k hk hpre => ?_) hn
  rw [List.drop_append_of_le_length hk.le, List.drop_eq_getElem_cons hk, List.cons_append,
    List.cons_prefix_cons] at hpre
  exact hblank (by rw [hpre.1]; exact List.getElem_mem hk)

theorem strnstr_crlf {front rest : CStr} {n : ℕ} (hfirst : ¬crlf <:+: front) (hzero : 0 ∉ front)
    (hn : front.length + 2 ≤ n) : strnstr crlf (front ++ (crlf ++ rest)) n = some front.length := by
  refine strnstr_eq_some rest (by decide) (by decide) hzero (fun k hk hpre => ?_) hn
  rw [List.drop_append_of_le_length hk.le] at hpre
  rcases hd : front.drop k with _ | ⟨x, _ | ⟨y, tail⟩⟩
  · have := congrArg List.length hd
    rw [List.length_drop, List.length_nil] at this
    omega
  · rw [hd] at hpre
    simp [crlf] at hpre
  · rw [hd, List.cons_append, List.cons_append, crlf, List.cons_prefix_cons, List.cons_prefix_cons]
      at hpre
    have hsuffix := List.drop_suffix k front
    rw [hd] at hsuffix
    refine hfirst (List.IsInfix.trans ⟨[], tail, ?_⟩ hsuffix.isInfix)
    rw [← hpre.1, ← hpre.2.1]
    rfl

theorem not_crlf_infix {front : CStr} (hfirst : ¬crlf <:+: front) : ¬crlf <:+: front ++ [13] := by
  rintro ⟨a, b, h⟩
  rcases List.eq_nil_or_concat b with rfl | ⟨b, x, rfl⟩
  · have := congrArg List.getLast? h
    simp [crlf] at this
  · rw [List.concat_eq_append, ← List.append_assoc] at h
    exact hfirst ⟨a, b, (List.append_inj' h rfl).1⟩

/-! ### A request in pieces -/

variable (fs net) in
theorem httpParseRequest_cases (p : List CStr) {hs : HttpState} (mem : FsMemory) (w : σ)
    (hnone : hs.handle = none) :
    (∃ uri is09, httpParseRequest fs net p hs mem w =
        (.ok, httpFindFile fs net { hs with req := hs.req ++ p } uri is09 mem w)) ∨
      httpParseRequest fs net p hs mem w = (.inprogress, { hs with req := hs.req ++ p }, mem, w) ∨
      httpParseRequest fs net p hs mem w = (.arg, { hs with req := hs.req ++ p }, mem, w) := by
  have hwaits (req : List CStr) : requestWaits req = .inprogress ∨ requestWaits req = .arg := by
    rw [requestWaits]
    split_ifs
    · exact .inl rfl
    · exact .inr rfl
  rw [httpParseRequest, hnone]
  simp only [Option.isSome_none, Bool.false_eq_true, if_false]
  split_ifs with hline hget
  · cases requestUri (requestData (hs.req ++ p)) with
    | some found => exact .inl ⟨found.1, found.2, rfl⟩
    | none =>
      right
      rcases hwaits (hs.req ++ p) with h | h
      · exact .inl (by simp only [h])
      · exact .inr (by simp only [h])
  · exact .inr (.inr rfl)
  · right
    rcases hwaits (hs.req ++ p) with h | h
    · exact .inl (by simp only [h])
    · exact .inr (by simp only [h])

/-- The first line of a request of HTTP/1.x for `uri`, up to its CRLF. One of HTTP/0.9 has no blank
    behind the URI: there a blank of the lines that follow ends the URI, if they have come already. -/
def RequestLine (uri line : CStr) : Prop :=
  ∃ version, line = lit "GET " ++ (uri ++ (32 :: version)) ∧ 32 ∉ uri ∧ 0 ∉ line ∧ ¬crlf <:+: line

theorem requestData_take (req : List CStr) :
    ∃ n, lwipHttpdMaxReqLength ≤ n ∧ requestData req = req.flatten.take n := by
  match req with
  | [payload] =>
    refine ⟨max lwipHttpdMaxReqLength payload.length, le_max_left .., ?_⟩
    rw [requestData, List.flatten_singleton, List.take_of_length_le (le_max_right ..)]
  | [] => exact ⟨_, le_rfl, rfl⟩
  | a :: b :: req => exact ⟨_, le_rfl, rfl⟩

variable {uri line rest : CStr} {req : List CStr}

variable (fs net) in
/-- Before the line is complete the request waits. -/
theorem parse_waits (p : List CStr) {hs : HttpState} (mem : FsMemory) (w : σ) (hh : hs.handle = none)
    (hline : RequestLine uri line) (hlen : line.length + 2 ≤ lwipHttpdMaxReqLength)
    (hreq : hs.req ++ p = req) (hpre : req.flatten <+: line ++ crlf)
    (hshort : req.flatten.length < line.length + 2)
    (hcount : req.length ≤ lwipHttpdReqQueuelen) :
    httpParseRequest fs net p hs mem w = (.inprogress, { hs with req := req }, mem, w) := by
  obtain ⟨version, rfl, -, -, hfirst⟩ := hline
  have hin : ¬crlf <:+: req.flatten := by
    intro h
    refine not_crlf_infix hfirst (h.trans (List.IsPrefix.isInfix ?_))
    refine List.prefix_of_prefix_length_le hpre ⟨[10], by simp [crlf]⟩ ?_
    simp only [List.length_append, List.length_cons, List.length_nil] at hshort ⊢
    omega
  obtain ⟨n, -, hdata⟩ := requestData_take req
  have hnone : strnstr crlf (requestData req) (requestData req).length = none := by
    apply strnstr_eq_none
    rw [List.take_length, hdata]
    exact fun h => hin (h.trans (List.take_prefix ..).isInfix)
  have hwait : requestWaits req = .inprogress := by
    rw [requestWaits, if_pos ⟨by omega, hcount⟩]
  simp only [httpParseRequest, hh, Option.isSome_none, Bool.false_eq_true, if_false, hreq, hnone,
    and_false, hwait]

variable (fs net) in
/-- With the end of the line the file is looked for. -/
theorem parse_finds (p : List CStr) {hs : HttpState} (mem : FsMemory) (w : σ) (hh : hs.handle = none)
    (hline : RequestLine uri line) (hlen : line.length + 2 ≤ lwipHttpdMaxReqLength)
    (hreq : hs.req ++ p = req) (hpre : line ++ crlf <+: req.flatten) :
    httpParseRequest fs net p hs mem w =
    (.ok, httpFindFile fs net { hs with req := req } uri false mem w) := by
  obtain ⟨n, hn, hdata⟩ := requestData_take req
  have hdata' : line ++ crlf <+: requestData req := by
    rw [hdata]
    refine List.prefix_take_iff.mpr ⟨hpre, ?_⟩
    rw [List.length_append]
    exact hlen.trans hn
  obtain ⟨rest, hrest⟩ := hdata'
  rw [List.append_assoc] at hrest
  obtain ⟨version, rfl, hblank, hzero, hfirst⟩ := hline
  have hcrlf : (strnstr crlf (requestData req) (requestData req).length).isSome := by
    rw [← hrest, strnstr_crlf hfirst hzero (by simp [crlf]; omega)]
    rfl
  have hmin : minReqLen ≤ (requestData req).length := by
    rw [← hrest]
    simp [minReqLen, crlf, lit]
    omega
  have hget : (requestData req).take 4 = lit "GET " := by
    rw [← hrest]
    rfl
  have huri : requestUri (requestData req) = some (uri, false) := by
    have hdrop : (requestData req).drop 4 = uri ++ (32 :: (version ++ (crlf ++ rest))) := by
      rw [← hrest]
      simp [lit]
    have hlength : uri.length < (requestData req).length - 4 := by
      rw [← List.length_drop, hdrop]
      simp
    have hzero' : 0 ∉ uri := fun h => hzero (by simp [h])
    rw [requestUri, if_pos hget, hdrop, strnstr_blank hblank hzero' hlength]
    simp
  simp only [httpParseRequest, hh, Option.isSome_none, Bool.false_eq_true, if_false, hreq, hmin,
    hcrlf, and_self,
    if_true, hget, huri]

variable (fs net) in
/-- However the request is cut into pbufs, the file is looked for when the line is complete, once
    and for the same URI. -/
theorem feed_finds {ps : List (List CStr)} {hs : HttpState} (mem : FsMemory) (w : σ)
    (hh : hs.handle = none)
    (hline : RequestLine uri line) (hlen : line.length + 2 ≤ lwipHttpdMaxReqLength)
    (hall : hs.req.flatten ++ ps.flatten.flatten = line ++ (crlf ++ rest))
    (hopen : hs.req.flatten.length < line.length + 2)
    (hcount : ∀ k, (hs.req ++ (ps.take k).flatten).flatten.length < line.length + 2 →
      (hs.req ++ (ps.take k).flatten).length ≤ lwipHttpdReqQueuelen) :
    ∃ k, feedRequest fs net ps hs mem w =
      (.ok, httpFindFile fs net { hs with req := hs.req ++ (ps.take k).flatten } uri false mem w) := by
  induction ps generalizing hs with
  | nil =>
    exfalso
    have := congrArg List.length hall
    simp only [List.flatten_nil, List.append_nil, List.length_append, crlf, List.length_cons,
      List.length_nil] at this
    omega
  | cons p ps ih =>
    rw [List.flatten_cons, List.flatten_append, ← List.append_assoc, ← List.flatten_append,
      ← List.append_assoc] at hall
    rcases Nat.lt_or_ge (hs.req ++ p).flatten.length (line.length + 2) with hshort | hlong
    · have hpre : (hs.req ++ p).flatten <+: line ++ crlf := by
        refine List.prefix_of_prefix_length_le ⟨_, hall⟩ (List.prefix_append _ rest) ?_
        simp only [List.length_append, crlf, List.length_cons, List.length_nil] at hshort ⊢
        omega
      have hwait := parse_waits fs net p mem w hh hline hlen rfl hpre hshort
        (by simpa using hcount 1 (by simpa using hshort))
      obtain ⟨k, hk⟩ := ih (show { hs with req := hs.req ++ p }.handle = none from hh)
        (by rw [hall, List.append_assoc]) hshort
        (fun k h => by
          have := hcount (k + 1) (by simpa [List.append_assoc] using h)
          simpa [List.append_assoc] using this)
      refine ⟨k + 1, ?_⟩
      rw [feedRequest, hwait]
      simp only [hk, List.take_succ_cons, List.flatten_cons, List.append_assoc]
    · refine ⟨1, ?_⟩
      have hpre : line ++ crlf <+: (hs.req ++ p).flatten := by
        refine List.prefix_of_prefix_length_le ⟨rest, rfl⟩ ⟨_, hall⟩ ?_
        simpa [crlf] using hlong
      rw [feedRequest, parse_finds fs net p mem w hh hline hlen rfl hpre]
      simp

theorem httpInitFile_req (hs : HttpState) (r : List CStr) (file : Option FsFile) (is09 : Bool) :
    httpInitFile { hs with req := r } file is09 = { httpInitFile hs file is09 with req := r } := by
  cases file with
  | none => rfl
  | some file =>
    simp only [httpInitFile]
    split_ifs
    · cases strnstr (crlf ++ crlf) file.data file.data.length <;> rfl
    · rfl

/-- The file does not depend on the pbufs that are kept. -/
theorem httpFindFile_req (hs : HttpState) (r : List CStr) (uri : CStr) (is09 : Bool)
    (mem : FsMemory) (w : σ) :
    httpFindFile fs net { hs with req := r } uri is09 mem w =
      ({ (httpFindFile fs net hs uri is09 mem w).1 with req := r },
      (httpFindFile fs net hs uri is09 mem w).2) := by
  simp only [httpFindFile, ← httpInitFile_req]

theorem req_httpFindFile (hs : HttpState) (uri : CStr) (is09 : Bool) (mem : FsMemory) (w : σ) :
    (httpFindFile fs net hs uri is09 mem w).1.req = hs.req :=
  congrArg (fun r => r.1.req) (httpFindFile_req hs hs.req uri is09 mem w)

/-- A request in pieces is answered as the whole request is. -/
theorem request_segmentation {ps : List (List CStr)} {hs : HttpState} (mem : FsMemory) (w : σ)
    (hh : hs.handle = none) (hreq : hs.req = []) (hline : RequestLine uri line)
    (hlen : line.length + 2 ≤ lwipHttpdMaxReqLength)
    (hall : ps.flatten.flatten = line ++ (crlf ++ rest))
    (hcount : ∀ k, (ps.take k).flatten.flatten.length < line.length + 2 →
      (ps.take k).flatten.length ≤ lwipHttpdReqQueuelen) :
    let whole := httpFindFile fs net hs uri false mem w
    ∃ req, feedRequest fs net ps hs mem w = (.ok, { whole.1 with req := req }, whole.2) := by
  obtain ⟨k, hk⟩ := feed_finds fs net mem w hh hline hlen (by rw [hreq]; exact hall)
    (by rw [hreq]; exact Nat.succ_pos _) (by rw [hreq]; exact hcount)
  exact ⟨_, by rw [hk, httpFindFile_req]⟩

def sampleFs : List FsdataFile := [⟨lit "/a", lit "HTTP/1.0 200 OK\r\n\r\n", true⟩]

/-- Two pieces, the first of which ends within the CRLF. -/
theorem request_segmentation_openNet :
    let whole := httpFindFile sampleFs openNet {} (lit "/a") false (fun _ => false) firstWorld
    whole.1.handle.isSome ∧
      ∃ req, feedRequest sampleFs openNet [[lit "GET /a HTTP/1.0\r"], [lit "\nHost: a\r\n"]] {}
      (fun _ => false)
        firstWorld = (.ok, { whole.1 with req := req }, whole.2) := by
  have hline : RequestLine (lit "/a") (lit "GET /a HTTP/1.0") :=
    ⟨lit "HTTP/1.0", rfl, by decide, by decide, by decide⟩
  refine ⟨rfl, request_segmentation _ _ rfl rfl hline (by decide)
    (show _ = lit "GET /a HTTP/1.0" ++ (crlf ++ lit "Host: a\r\n") from rfl) fun k _ => ?_⟩
  match k with
  | 0 => decide
  | 1 => decide
  | k + 2 => simp [lwipHttpdReqQueuelen]

/-! ### The place of a file -/

/-- What opening a file does: it takes a place that was free. -/
structure Opened (fs : List FsdataFile) (mem : FsMemory) (file : FsFile) (mem' : FsMemory) : Prop where
  free : mem file.place = false
  taken : mem' = Function.update mem file.place true
  served : ∃ f ∈ fs, file.data = f.data ∧ file.httpHeaderIncluded = f.httpHeaderIncluded

section Places

variable {mem mem' : FsMemory} {file : FsFile}

theorem fsOpen_opened {name : CStr} (h : fsOpen fs name mem = (some file, mem')) :
    Opened fs mem file mem' := by
  obtain ⟨hfree, htaken, f, hf, -, hdata, hheader⟩ := fsOpen_some h
  exact ⟨hfree, htaken, f, hf, hdata, hheader⟩

theorem openFirst_none {α : Type*} {name : α → CStr} : ∀ {xs : List α} {mem : FsMemory},
    openFirst fs name xs mem = (none, mem') → mem' = mem
  | [], _, h => by cases h; rfl
  | x :: xs, mem, h => by
      rw [openFirst] at h
      rcases hopen : fsOpen fs (name x) mem with ⟨_ | file, mem₁⟩
      · rw [hopen] at h
        exact (openFirst_none h).trans (fsOpen_none hopen)
      · rw [hopen] at h
        cases h

theorem openFirst_some {α : Type*} {name : α → CStr} {x : α} : ∀ {xs : List α} {mem : FsMemory},
    openFirst fs name xs mem = (some (file, x), mem') → Opened fs mem file mem'
  | [], _, h => by cases h
  | y :: ys, mem, h => by
      rw [openFirst] at h
      rcases hopen : fsOpen fs (name y) mem with ⟨_ | file', mem₁⟩
      · rw [hopen] at h
        have hrec := openFirst_some h
        rwa [fsOpen_none hopen] at hrec
      · rw [hopen] at h
        cases h
        exact fsOpen_opened hopen

variable (fs net) in
/-- A file that is found has been opened; if none is found no place is taken. -/
theorem findFile_opened (uri : CStr) (mem : FsMemory) (w : σ) :
    match (findFile fs net uri mem w).1.1 with
    | some file => Opened fs mem file (findFile fs net uri mem w).2.1
    | none => (findFile fs net uri mem w).2.1 = mem := by
  simp only [findFile]
  split_ifs
  · rcases hfirst : openFirst fs (fun f : String × Bool => lit f.1) gPsDefaultFilenames mem with
      ⟨_ | ⟨file, f⟩, mem₁⟩
    · obtain rfl := openFirst_none hfirst
      rcases h404 : httpGet404File fs mem₁ with ⟨_ | ⟨file, name⟩, mem₂⟩
      · simp only [h404, Option.map_none]
        exact openFirst_none h404
      · simp only [h404, Option.map_some]
        exact openFirst_some h404
    · exact openFirst_some hfirst
  · rcases hopen : fsOpen fs (runCgi net uri w).1 mem with ⟨_ | file, mem₁⟩
    · obtain rfl := fsOpen_none hopen
      rcases h404 : httpGet404File fs mem₁ with ⟨_ | ⟨file, name⟩, mem₂⟩
      · simp only [h404]
        exact openFirst_none h404
      · simp only [h404]
        exact openFirst_some h404
    · exact fsOpen_opened hopen

variable (fs net) in
theorem sent_findFile (uri : CStr) (mem : FsMemory) (w : σ) (c : C) :
    net.sent c (findFile fs net uri mem w).2.2 = net.sent c w := by
  have hcgi : net.sent c (runCgi net uri w).2 = net.sent c w := by
    rw [runCgi]
    split
    · exact net.sent_cgiHandler ..
    · rfl
  simp only [findFile]
  split_ifs
  · split <;> rfl
  · split
    · exact hcgi
    · split <;> exact hcgi

end Places

end Web

end VectorFence
