import VectorFence.Lib.Weave
import VectorFence.Web.Files
import VectorFence.Web.Ssi
import VectorFence.Web.Uri

/-! `http_send_data` of `httpd.c`: how a file of the web server gets to the browser. TCP takes what
    it has room for; the rest waits for the next call. In a page with tags the bytes are read on the
    way, and behind a tag stands what the device says for it:

        … <td><!--#e--> </td> …          file
        … <td><!--#e-->23.5 </td> …      what is sent

        TAG_NONE ─'<'─▶ TAG_LEADIN ─"!--#"─▶ TAG_FOUND ─name─▶ TAG_LEADOUT ─"-->"─▶ TAG_SENDING ─▶
        TAG_NONE

    The pointers into the file are offsets. `LWIP_HTTPD_SSI_INCLUDE_TAG` is set and
    `LWIP_HTTPD_DYNAMIC_HEADERS` is not: the header is a part of the file. -/

namespace VectorFence

open CStr

/-- `err_t`. -/
inductive Err where
  | ok | mem | buf | timeout | rte | inprogress | val | wouldblock | use | isconn | abrt | rst | clsd
    | conn | arg
  | netif
  deriving DecidableEq, Repr

/-- What the web server uses of TCP, over the state `σ` of the rest of the system. A `C` is a
    connection; `sent` is what `tcp_write` has taken on it. -/
structure Tcp (C σ : Type*) where
  sndbuf : C → σ → UInt16
  mss : C → σ → UInt16
  /-- `pcb->snd_queuelen >= TCP_SND_QUEUELEN`. -/
  queueFull : C → σ → Bool
  tcpWrite : C → CStr → σ → Err × σ
  tcpClose : C → σ → Err × σ
  /-- A connection that comes in. -/
  newPcb : C → σ → σ
  sent : C → σ → CStr
  sent_of_ok : ∀ c bs w, (tcpWrite c bs w).1 = .ok → sent c (tcpWrite c bs w).2 = sent c w ++ bs
  sent_of_err : ∀ c bs w, (tcpWrite c bs w).1 ≠ .ok → sent c (tcpWrite c bs w).2 = sent c w
  sent_of_ne : ∀ c c' bs w, c' ≠ c → sent c' (tcpWrite c bs w).2 = sent c' w
  sent_tcpClose : ∀ c c' w, sent c' (tcpClose c w).2 = sent c' w
  sent_newPcb : ∀ c w, sent c (newPcb c w) = []
  sent_newPcb_of_ne : ∀ c c' w, c' ≠ c → sent c' (newPcb c w) = sent c' w

/-- And what it uses of the device. -/
structure Net (C σ : Type*) extends Tcp C σ where
  ssiHandler : Tag → σ → CStr × σ
  cgiHandler : Web.CgiHandler → List Web.UriParam → σ → CStr × σ
  sent_ssiHandler : ∀ c tag w, sent c (ssiHandler tag w).2 = sent c w
  sent_cgiHandler : ∀ c h params w, sent c (cgiHandler h params w).2 = sent c w

/-- The device on a line: `tcp` does not know of the site, and `cgi` does not know of TCP. -/
def Site.net {C τ : Type*} (tcp : Tcp C τ) (env : τ → SsiEnv)
    (cgi : Web.CgiHandler → List Web.UriParam → Site → CStr × Site) : Net C (τ × Site) where
  sndbuf c w := tcp.sndbuf c w.1
  mss c w := tcp.mss c w.1
  queueFull c w := tcp.queueFull c w.1
  tcpWrite c bs w := ((tcp.tcpWrite c bs w.1).1, (tcp.tcpWrite c bs w.1).2, w.2)
  tcpClose c w := ((tcp.tcpClose c w.1).1, (tcp.tcpClose c w.1).2, w.2)
  newPcb c w := (tcp.newPcb c w.1, w.2)
  sent c w := tcp.sent c w.1
  sent_of_ok c bs w := tcp.sent_of_ok c bs w.1
  sent_of_err c bs w := tcp.sent_of_err c bs w.1
  sent_of_ne c c' bs w := tcp.sent_of_ne c c' bs w.1
  sent_tcpClose c c' w := tcp.sent_tcpClose c c' w.1
  sent_newPcb c w := tcp.sent_newPcb c w.1
  sent_newPcb_of_ne c c' w := tcp.sent_newPcb_of_ne c c' w.1
  ssiHandler tag w := ((w.2.ssiHandler (env w.1) tag).2, w.1, (w.2.ssiHandler (env w.1) tag).1)
  cgiHandler h params w := ((cgi h params w.2).1, w.1, (cgi h params w.2).2)
  sent_ssiHandler _ _ _ := rfl
  sent_cgiHandler _ _ _ _ := rfl

/-- A line that takes everything. -/
def openLine : Tcp Unit CStr where
  sndbuf _ _ := 536
  mss _ _ := 536
  queueFull _ _ := false
  tcpWrite _ bs w := (.ok, w ++ bs)
  tcpClose _ w := (.ok, w)
  newPcb _ _ := []
  sent _ w := w
  sent_of_ok _ _ _ _ := rfl
  sent_of_err _ _ _ h := absurd rfl h
  sent_of_ne _ _ _ _ h := absurd rfl h
  sent_tcpClose _ _ _ := rfl
  sent_newPcb _ _ := rfl
  sent_newPcb_of_ne _ _ _ h := absurd rfl h

def openNet : Net Unit (CStr × Site) :=
  Site.net openLine (fun _ => ⟨0, false, 0⟩) fun _ _ w => (lit "/control.shtml", w)

/-- The device after its first start, on such a line. -/
def firstWorld : CStr × Site := ([], ⟨Host.firstStart, 0⟩)

inductive TagState where | none | leadin | found | leadout | sending
  deriving DecidableEq, Repr

/-- `struct http_state`. `file` and `handle` are NULL together; `req` is the chain of pbufs of a
    request that is not complete. `tagInsert` is what is read from `tag_insert` on, `tag_insert_len`
    its length: a text that the 193 bytes do not hold goes on in the fields behind them. -/
structure HttpState where
  handle : Option FsFile := none
  req : List CStr := []
  file : ℕ := 0
  left : ℕ := 0
  retries : UInt8 := 0
  parsed : ℕ := 0
  parseLeft : ℕ := 0
  tagEnd : ℕ := 0
  tagCheck : Bool := false
  tagIndex : ℕ := 0
  tagState : TagState := .none
  tagName : CStr := []
  tagInsert : CStr := []

namespace HttpState

/-- What `file`, `parsed` and `tag_end` point into. -/
def page (hs : HttpState) : CStr := (hs.handle.map FsFile.data).getD []

/-- `*hs->parsed`. -/
def cur (hs : HttpState) : UInt8 := hs.page.getD hs.parsed 0

/-- On to the next character in the buffer. -/
def advance (hs : HttpState) : HttpState :=
  { hs with parsed := hs.parsed + 1, parseLeft := hs.parseLeft - 1 }

def move (hs : HttpState) (n : ℕ) : HttpState := { hs with file := hs.file + n, left := hs.left - n }

end HttpState

namespace Web

def gPcTagLeadIn : CStr := lit "<!--#"
def gPcTagLeadOut : CStr := lit "-->"
def lwipHttpdMaxTagNameLen : ℕ := 1

def ppcTAGs : List (String × Tag) :=
  [("m", .mac), ("i", .ip), ("s", .subMask), ("g", .gateway), ("e", .temperature), ("d", .dateTime),
    ("a", .alarmState), ("p", .tension), ("c", .controlState), ("h", .hardwareVersion),
    ("v", .softwareVersion), ("y", .logType), ("l", .log), ("w", .webPageFlag), ("r", .switches),
    ("f", .fieldParas), ("n", .logPageNum), ("t", .logPageTotal), ("x", .model), ("z", .remoteShutdown),
    ("b", .configCode), ("j", .adcVals), ("k", .calibrating)]

/-- The text for a tag that has no handler. -/
def unknownTag (name : CStr) : CStr :=
  lit "<b>***UNKNOWN TAG " ++ name.take (lwipHttpdMaxTagInsertLen - 25) ++ lit "***</b>"

def isBlank (ch : UInt8) : Bool := ch = 32 || ch = 9 || ch = 10 || ch = 13

variable {C σ : Type*} (net : Net C σ) (c : C)

/-- `http_write`: smaller and smaller pieces, until one is taken. -/
def httpWrite (data : CStr) (len : ℕ) (w : σ) : Err × ℕ × σ :=
  match net.tcpWrite c (data.take len) w with
  | (.mem, w) =>
      let len' := if net.sndbuf c w = 0 ∨ net.queueFull c w then 1 else len / 2
      if 1 < len' then httpWrite data len' w else (.mem, len', w)
  | (err, w) => (err, len, w)
  termination_by len
  decreasing_by
    rename_i h
    simp only [len'] at h ⊢
    split_ifs at h ⊢ <;> omega

/-- `get_tag_insert`, for `hs->tag_name`. -/
def getTagInsert (tagName : CStr) (w : σ) : CStr × σ :=
  match ppcTAGs.find? fun t => lit t.1 = Log.cstr tagName with
  | some t => net.ssiHandler t.2 w
  | none => (unknownTag (Log.cstr tagName), w)

/-- The local variables of `http_send_data`; `inserts` is what `get_tag_insert` was called for, and what
    stands in `tag_insert` then. -/
structure Sending (σ : Type*) where
  hs : HttpState
  world : σ
  len : ℕ
  err : Err := .ok
  dataToSend : Bool := false
  inserts : List (CStr × CStr) := []

/-- `http_write` from `hs->file`. -/
def writeFile (t : Sending σ) : Sending σ :=
  match httpWrite net c (t.hs.page.drop t.hs.file) t.len t.world with
  | (.ok, n, w) => { t with hs := t.hs.move n, world := w, len := n, err := .ok, dataToSend := true }
  | (err, n, w) => { t with world := w, len := n, err := err }

/-- `http_write` from `hs->tag_insert`. -/
def writeInsert (t : Sending σ) : Sending σ :=
  match httpWrite net c (t.hs.tagInsert.drop t.hs.tagIndex) t.len t.world with
  | (.ok, n, w) =>
      { t with
        hs := { t.hs with tagIndex := t.hs.tagIndex + n }
        world := w
        len := n
        err := .ok
        dataToSend := true }
  | (err, n, w) => { t with world := w, len := n, err := err }

/-- A text from `tag_insert` on, after `hs->tag_state = TAG_SENDING`: `tag_state` is the byte behind
    the array. What does not fit the structure either is not modelled. -/
def overTagState (text : CStr) : CStr := text.set (lwipHttpdMaxTagInsertLen + 1) 4

theorem overTagState_of_le {text : CStr} (h : text.length ≤ lwipHttpdMaxTagInsertLen) :
    overTagState text = text :=
  List.set_eq_of_length_le (h.trans (Nat.le_succ _))

@[simp]
theorem length_overTagState (text : CStr) : (overTagState text).length = text.length := List.length_set

/-- How much of `avail` bytes can be sent. -/
def room (w : σ) (avail : ℕ) : ℕ :=
  let len := if (net.sndbuf c w).toNat < avail then (net.sndbuf c w).toNat else avail
  if len > 2 * (net.mss c w).toNat then 2 * (net.mss c w).toNat else len

/-- `if(len > avail) len = avail`. -/
def clip (len avail : ℕ) : ℕ := if len > avail then avail else len

/-- The end of a tag: from here on its insert is sent. -/
def callTag (t : Sending σ) : Sending σ :=
  let insert := getTagInsert net t.hs.tagName t.world
  let text := overTagState insert.1
  { t with
    hs := { t.hs with tagInsert := text, tagIndex := 0, tagState := .sending, tagEnd := t.hs.parsed }
    world := insert.2
    inserts := t.inserts ++ [(t.hs.tagName, text)] }

/-- If there is any unsent data in the buffer prior to the tag, it is sent now. -/
def tagFound (t : Sending σ) : Sending σ :=
  let t := callTag net t
  if t.hs.tagEnd > t.hs.file then
    writeFile net c { t with len := clip t.len (t.hs.tagEnd - t.hs.file) } else t

/-- One turn of the loop in `http_send_data`. -/
def parseTag (t : Sending σ) : Sending σ :=
  let hs := t.hs
  match hs.tagState with
  | .none =>
      if hs.cur = gPcTagLeadIn.getD 0 0 then
        { t with hs := { hs with tagState := .leadin, tagIndex := 1 }.advance }
      else { t with hs := hs.advance }
  | .leadin =>
      if hs.tagIndex = gPcTagLeadIn.length then
        { t with hs := { hs with tagIndex := 0, tagState := .found } }
      else if hs.cur = gPcTagLeadIn.getD hs.tagIndex 0 then
        { t with hs := { hs with tagIndex := hs.tagIndex + 1 }.advance }
      else { t with hs := { hs with tagState := .none }.advance }
  | .found =>
      if hs.tagIndex = 0 ∧ isBlank hs.cur then { t with hs := hs.advance }
      else if hs.cur = gPcTagLeadOut.getD 0 0 ∨ isBlank hs.cur then
        if hs.tagIndex = 0 then { t with hs := { hs with tagState := .none }.advance }
        else { t with hs := { hs with
          tagState := .leadout
          tagName := hs.tagName.take hs.tagIndex
          tagIndex := if hs.cur = gPcTagLeadOut.getD 0 0 then 1 else 0 }.advance }
      else if hs.tagIndex < lwipHttpdMaxTagNameLen then
        { t with hs := { hs with
          tagName := hs.tagName.take hs.tagIndex ++ [hs.cur], tagIndex := hs.tagIndex + 1 }.advance }
      else { t with hs := { hs with tagState := .none }.advance }
  | .leadout =>
      if hs.tagIndex = 0 ∧ isBlank hs.cur then { t with hs := hs.advance }
      else if hs.cur = gPcTagLeadOut.getD hs.tagIndex 0 then
        if hs.tagIndex = gPcTagLeadOut.length - 1 then tagFound net c { t with hs := hs.advance }
        else { t with hs := { hs with tagIndex := hs.tagIndex + 1 }.advance }
      else { t with hs := { hs with tagState := .none }.advance }
  | .sending =>
      if hs.tagEnd > hs.file then
        if clip t.len (hs.tagEnd - hs.file) ≠ 0 then
          writeFile net c { t with len := clip t.len (hs.tagEnd - hs.file) }
        else { t with len := 0, err := .ok, dataToSend := true }
      else if hs.tagIndex < hs.tagInsert.length then
        writeInsert net c { t with len := clip t.len (hs.tagInsert.length - hs.tagIndex) }
      else { t with hs := { hs with tagIndex := 0, tagState := .none } }

/-! ### What is written -/

variable {net c}

/-- What a result of `http_write` says about the bytes that TCP has taken. -/
structure Wrote (net : Net C σ) (c : C) (data : CStr) (len : ℕ) (w : σ) (r : Err × ℕ × σ) : Prop where
  of_ok : r.1 = .ok → r.2.1 ≤ len ∧ (0 < len → 0 < r.2.1) ∧
    net.sent c r.2.2 = net.sent c w ++ data.take r.2.1
  of_err : r.1 ≠ .ok → net.sent c r.2.2 = net.sent c w
  of_ne : ∀ c' ≠ c, net.sent c' r.2.2 = net.sent c' w

theorem Wrote.of_not_ok {data : CStr} {len : ℕ} {w : σ} {r : Err × ℕ × σ} (h : Wrote net c data len w r)
    (herr : r.1 ≠ .ok) (c' : C) : net.sent c' r.2.2 = net.sent c' w := by
  by_cases hc : c' = c
  · rw [hc]
    exact h.of_err herr
  · exact h.of_ne c' hc

variable (net c) in
theorem wrote_httpWrite (data : CStr) (len : ℕ) (w : σ) :
    Wrote net c data len w (httpWrite net c data len w) := by
  fun_induction httpWrite net c data len w with
  | case1 len w w' htcp len' hlen ih =>
    have herr := net.sent_of_err c (data.take len) w (by simp [htcp])
    have hne := fun c' => net.sent_of_ne c c' (data.take len) w
    rw [htcp] at herr hne
    have hle : len' ≤ len := by simp only [len'] at hlen ⊢; split_ifs at hlen ⊢ <;> omega
    refine ⟨fun h => ?_, fun h => (ih.of_err h).trans herr,
      fun c' h => (ih.of_ne c' h).trans (hne c' h)⟩
    obtain ⟨hn, hpos, hsent⟩ := ih.of_ok h
    exact ⟨hn.trans hle, fun _ => hpos (by omega), by rw [hsent, herr]⟩
  | case2 len w w' htcp len' hlen =>
    have herr := net.sent_of_err c (data.take len) w (by simp [htcp])
    have hne := fun c' => net.sent_of_ne c c' (data.take len) w
    rw [htcp] at herr hne
    exact ⟨fun h => by simp at h, fun _ => herr, hne⟩
  | case3 len w err w' hmem htcp =>
    have hok := net.sent_of_ok c (data.take len) w
    have herr := net.sent_of_err c (data.take len) w
    have hne := fun c' => net.sent_of_ne c c' (data.take len) w
    rw [htcp] at hok herr hne
    exact ⟨fun h => ⟨le_rfl, id, hok h⟩, herr, hne⟩

/-- What TCP takes at once is written in one piece. -/
theorem httpWrite_of_taken {data : CStr} {len : ℕ} {w : σ}
    (h : (net.tcpWrite c (data.take len) w).1 = .ok) :
    httpWrite net c data len w = (.ok, len, (net.tcpWrite c (data.take len) w).2) := by
  rw [httpWrite]
  rcases htcp : net.tcpWrite c (data.take len) w with ⟨err, w'⟩
  rw [htcp] at h
  cases h
  rfl

variable (net c) in
/-- A piece of the file is written, or nothing. -/
theorem writeFile_cases (t : Sending σ) :
    (∃ n w, n ≤ t.len ∧ (0 < t.len → 0 < n) ∧
      net.sent c w = net.sent c t.world ++ (t.hs.page.drop t.hs.file).take n ∧
      (∀ c' ≠ c, net.sent c' w = net.sent c' t.world) ∧
      writeFile net c t = { t with hs := t.hs.move n, world := w, len := n, err := .ok, dataToSend := true }) ∨
    ∃ err n w, err ≠ .ok ∧ (∀ c', net.sent c' w = net.sent c' t.world) ∧
      writeFile net c t = { t with world := w, len := n, err := err } := by
  have hwrote := wrote_httpWrite net c (t.hs.page.drop t.hs.file) t.len t.world
  rcases hr : httpWrite net c (t.hs.page.drop t.hs.file) t.len t.world with ⟨err, n, w⟩
  rw [hr] at hwrote
  by_cases herr : err = .ok
  · obtain ⟨hn, hpos, hsent⟩ := hwrote.of_ok herr
    subst herr
    exact .inl ⟨n, w, hn, hpos, hsent, hwrote.of_ne, by rw [writeFile, hr]⟩
  · refine .inr ⟨err, n, w, herr, hwrote.of_not_ok herr, ?_⟩
    rw [writeFile, hr]
    cases err <;> first | rfl | exact absurd rfl herr

variable (net c) in
/-- A piece of the insert is written, or nothing. -/
theorem writeInsert_cases (t : Sending σ) :
    (∃ n w, n ≤ t.len ∧ (0 < t.len → 0 < n) ∧
      net.sent c w = net.sent c t.world ++ (t.hs.tagInsert.drop t.hs.tagIndex).take n ∧
      (∀ c' ≠ c, net.sent c' w = net.sent c' t.world) ∧
      writeInsert net c t = { t with
        hs := { t.hs with tagIndex := t.hs.tagIndex + n }
        world := w
        len := n
        err := .ok
        dataToSend := true }) ∨
    ∃ err n w, err ≠ .ok ∧ (∀ c', net.sent c' w = net.sent c' t.world) ∧
      writeInsert net c t = { t with world := w, len := n, err := err } := by
  have hwrote := wrote_httpWrite net c (t.hs.tagInsert.drop t.hs.tagIndex) t.len t.world
  rcases hr : httpWrite net c (t.hs.tagInsert.drop t.hs.tagIndex) t.len t.world with ⟨err, n, w⟩
  rw [hr] at hwrote
  by_cases herr : err = .ok
  · obtain ⟨hn, hpos, hsent⟩ := hwrote.of_ok herr
    subst herr
    exact .inl ⟨n, w, hn, hpos, hsent, hwrote.of_ne, by rw [writeInsert, hr]⟩
  · refine .inr ⟨err, n, w, herr, hwrote.of_not_ok herr, ?_⟩
    rw [writeInsert, hr]
    cases err <;> first | rfl | exact absurd rfl herr

/-! ### The loop -/

/-- What is left to do where a turn reads nothing. -/
def pending (hs : HttpState) : ℕ :=
  match hs.tagState with
  | .leadin => 1
  | .sending => 1 + (hs.tagEnd - hs.file) + (hs.tagInsert.length - hs.tagIndex)
  | _ => 0

/-- Every turn reads a byte, brings a piece of a tag away or ends the loop. -/
def togo (t : Sending σ) : ℕ ×ₗ ℕ := toLex (if t.err = .ok then t.hs.parseLeft + 1 else 0, pending t.hs)

theorem togo_lt_of_read {t t' : Sending σ} (hok : t.err = .ok)
    (hread : t'.err ≠ .ok ∨ t'.hs.parseLeft < t.hs.parseLeft) : togo t' < togo t := by
  refine Prod.Lex.toLex_lt_toLex.mpr (.inl ?_)
  simp only [hok, if_true]
  split_ifs with h
  · have := hread.resolve_left fun h' => h' h
    omega
  · omega

theorem togo_lt_of_pending {t t' : Sending σ} (hok : t.err = .ok) (hok' : t'.err = .ok)
    (hleft : t'.hs.parseLeft = t.hs.parseLeft) (hlt : pending t'.hs < pending t.hs) :
    togo t' < togo t := by
  refine Prod.Lex.toLex_lt_toLex.mpr (.inr ⟨?_, hlt⟩)
  simp only [hok, hok', hleft]

theorem writeFile_read (t : Sending σ) : (writeFile net c t).hs.parseLeft = t.hs.parseLeft := by
  rcases writeFile_cases net c t with ⟨n, w, -, -, -, -, h⟩ | ⟨err, n, w, -, -, h⟩
  · rw [h]
    rfl
  · rw [h]

theorem tagFound_read (t : Sending σ) : (tagFound net c t).hs.parseLeft = t.hs.parseLeft := by
  simp only [tagFound]
  split_ifs
  · exact writeFile_read _
  · rfl

theorem clip_eq (len avail : ℕ) : clip len avail = min len avail := by
  simp only [clip]
  split_ifs <;> omega

/-- A turn that writes data in front of a tag. -/
theorem togo_writeFile {t : Sending σ} (hok : t.err = .ok) (hlen : t.len ≠ 0)
    (hstate : t.hs.tagState = .sending)
    (hend : t.hs.tagEnd > t.hs.file) :
    togo (writeFile net c { t with len := clip t.len (t.hs.tagEnd - t.hs.file) }) < togo t := by
  rcases writeFile_cases net c { t with len := clip t.len (t.hs.tagEnd - t.hs.file) } with
    ⟨n, w, hn, hpos, -, -, h⟩ | ⟨err, n, w, herr, -, h⟩
  · rw [h]
    simp only [clip_eq] at hn hpos
    refine togo_lt_of_pending hok rfl rfl ?_
    simp only [pending, hstate, HttpState.move]
    have := hpos (by omega)
    omega
  · rw [h]
    exact togo_lt_of_read hok (.inl herr)

theorem togo_writeInsert {t : Sending σ} (hok : t.err = .ok) (hlen : t.len ≠ 0)
    (hstate : t.hs.tagState = .sending)
    (hlt : t.hs.tagIndex < t.hs.tagInsert.length) :
    togo (writeInsert net c { t with len := clip t.len (t.hs.tagInsert.length - t.hs.tagIndex) }) <
    togo t := by
  rcases writeInsert_cases net c
    { t with len := clip t.len (t.hs.tagInsert.length - t.hs.tagIndex) } with
    ⟨n, w, hn, hpos, -, -, h⟩ | ⟨err, n, w, herr, -, h⟩
  · rw [h]
    simp only [clip_eq] at hn hpos
    refine togo_lt_of_pending hok rfl rfl ?_
    simp only [pending, hstate]
    have := hpos (by omega)
    omega
  · rw [h]
    exact togo_lt_of_read hok (.inl herr)

theorem togo_parseTag {t : Sending σ} (hleft : t.hs.parseLeft ≠ 0) (hok : t.err = .ok)
    (hlen : t.len ≠ 0) :
    togo (parseTag net c t) < togo t := by
  have hadv : ∀ hs : HttpState, hs.parseLeft = t.hs.parseLeft →
    hs.advance.parseLeft < t.hs.parseLeft := by
    intro hs h
    simp only [HttpState.advance]
    omega
  rw [parseTag]
  cases hstate : t.hs.tagState with
  | none =>
    simp only
    split_ifs <;> exact togo_lt_of_read hok (.inr (hadv _ rfl))
  | found =>
    simp only
    split_ifs <;> exact togo_lt_of_read hok (.inr (hadv _ rfl))
  | leadin =>
    simp only
    split_ifs
    · exact togo_lt_of_pending hok hok rfl (by simp [pending, hstate])
    · exact togo_lt_of_read hok (.inr (hadv _ rfl))
    · exact togo_lt_of_read hok (.inr (hadv _ rfl))
  | leadout =>
    simp only
    split_ifs
    · exact togo_lt_of_read hok (.inr (hadv _ rfl))
    · refine togo_lt_of_read hok (.inr ?_)
      rw [tagFound_read]
      exact hadv _ rfl
    · exact togo_lt_of_read hok (.inr (hadv _ rfl))
    · exact togo_lt_of_read hok (.inr (hadv _ rfl))
  | sending =>
    simp only
    split_ifs with hend hzero hlt
    · exact togo_writeFile hok hlen hstate hend
    · exfalso
      rw [clip_eq] at hzero
      omega
    · exact togo_writeInsert hok hlen hstate hlt
    · exact togo_lt_of_pending hok hok rfl (by simp [pending, hstate])

variable (net c)

/-- The loop; the flag is set where it returns from `http_send_data`. -/
def parseTags (t : Sending σ) : Sending σ × Bool :=
  if t.hs.parseLeft ≠ 0 ∧ t.err = .ok then
    if t.len = 0 then (t, true) else parseTags (parseTag net c t)
  else (t, false)
  termination_by togo t
  decreasing_by
    rename_i h hlen
    exact togo_parseTag h.1 h.2 hlen

/-- A turn, if the loop goes on. -/
def turn (t : Sending σ) : Sending σ :=
  if t.hs.parseLeft ≠ 0 ∧ t.err = .ok ∧ t.len ≠ 0 then parseTag net c t else t

theorem parseTags_turn (t : Sending σ) : parseTags net c (turn net c t) = parseTags net c t := by
  rw [turn]
  split_ifs with h
  · conv_rhs => rw [parseTags, if_pos ⟨h.1, h.2.1⟩, if_neg h.2.2]
  · rfl

/-- The loop ends where its turns come to the end of the file. -/
theorem parseTags_of_turns (n : ℕ) {t : Sending σ} (hend : ((turn net c)^[n] t).hs.parseLeft = 0) :
    parseTags net c t = ((turn net c)^[n] t, false) := by
  induction n generalizing t with
  | zero => rw [Function.iterate_zero, id, parseTags, if_neg fun h => h.1 hend]
  | succ n ih =>
    rw [Function.iterate_succ_apply] at hend ⊢
    rw [← ih hend, parseTags_turn]

/-- What a call of `http_send_data` leaves behind. -/
structure Sent (σ : Type*) where
  hs : HttpState
  world : σ
  /-- The value it returns. -/
  dataToSend : Bool
  /-- It has called `http_close_conn`. -/
  closed : Bool
  inserts : List (CStr × CStr)

/-- `return data_to_send`. -/
def Sending.ret (t : Sending σ) : Sent σ := ⟨t.hs, t.world, t.dataToSend, false, t.inserts⟩

/-- The end of `http_send_data`; `fs_bytes_left` is never positive. -/
def sendEnd (t : Sending σ) : Sent σ :=
  if t.hs.left = 0 then ⟨t.hs, t.world, false, true, t.inserts⟩ else t.ret

/-- The data that was already parsed. -/
def sendRead (hs : HttpState) (w : σ) : Sending σ :=
  if hs.parsed > hs.file then writeFile net c
    { hs := hs, world := w, len := room net c w (hs.parsed - hs.file) }
  else { hs := hs, world := w, len := (net.sndbuf c w).toNat }

/-- The data behind the loop. -/
def sendUnsent (t : Sending σ) : Sending σ :=
  if t.hs.tagState ≠ .sending ∧ t.hs.parsed > t.hs.file then
    writeFile net c { t with len := room net c t.world (t.hs.parsed - t.hs.file) }
  else t

/-- What is sent of a page with tags. -/
def sendTags (hs : HttpState) (w : σ) : Sent σ :=
  let t := sendRead net c hs w
  if hs.parsed > hs.file ∧ net.sndbuf c t.world = 0 then t.ret
  else
    let loop := parseTags net c t
    if loop.2 then loop.1.ret else sendEnd (sendUnsent net c loop.1)

/-- `http_send_data`. With nothing left there is no file, or it is at its end. -/
def httpSendData (hs : HttpState) (w : σ) : Sent σ :=
  if hs.left = 0 then ⟨hs, w, false, true, []⟩
  else if hs.tagCheck = false then
    sendEnd (writeFile net c { hs := hs, world := w, len := room net c w hs.left })
  else sendTags net c hs w

/-- A call in which the loop comes to the end of the file. -/
theorem httpSendData_of_turns {hs : HttpState} {w : σ} (n : ℕ) (hleft : hs.left ≠ 0)
    (htag : hs.tagCheck = true)
    (hparsed : hs.parsed ≤ hs.file) (hend : ((turn net c)^[n] (sendRead net c hs w)).hs.parseLeft = 0) :
    httpSendData net c hs w = sendEnd (sendUnsent net c ((turn net c)^[n] (sendRead net c hs w))) := by
  rw [httpSendData, if_neg hleft, if_neg (by simp [htag]), sendTags, parseTags_of_turns net c n hend,
    if_neg fun h => absurd h.1 (not_lt.mpr hparsed)]
  rfl

end Web

end VectorFence
