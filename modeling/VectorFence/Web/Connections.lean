import VectorFence.Lib.Slots
import VectorFence.Web.Delivery

/-! The connections of the web server: `http_accept`, `http_recv`, `http_sent`, `http_poll` and
    `http_err`, which TCP calls in any order, for any of its connections.

        accept ─▶ waits for the request ─▶ sends the file ─▶ closed
                        │ too many polls, an error, the other side    ▲
                        └─────────────────────────────────────────────┘

    A connection that cannot be closed at once keeps only `http_poll`, which tries again. `tcp_recved`,
    `tcp_output` and the priorities change nothing but TCP's own state. -/

namespace VectorFence

open CStr

/-- A connection: none, one with a state, or one that is still to be closed. -/
inductive Conn where
  | free
  | active (hs : HttpState)
  | closing

/-- The web server. `pbufs` is how many of the pbufs that it has been given are not free yet. -/
structure HttpServer (C σ : Type*) where
  conn : C → Conn
  mem : FsMemory
  pbufs : ℕ
  world : σ

/-- What TCP calls; for `accept` whether there is memory for a `struct http_state`, for `recv` the
    pbufs, NULL when the other side has closed. -/
inductive HttpEvent (C σ : Type*) where
  | accept (c : C) (memory : Bool)
  | recv (c : C) (p : Option (List CStr)) (err : Err)
  | sent (c : C)
  | poll (c : C)
  | err (c : C)
  | world (f : σ → σ)

namespace HttpServer

open Web

variable {C σ : Type*} [DecidableEq C]

def httpdMaxRetries : UInt8 := 4

def setConn (s : HttpServer C σ) (c : C) (x : Conn) : HttpServer C σ :=
  { s with conn := Function.update s.conn c x }

/-- `http_state_free`: the file is closed. The pbufs of a request are not freed. -/
def stateFree (s : HttpServer C σ) (hs : HttpState) : HttpServer C σ :=
  match hs.handle with
  | some file => { s with mem := fsClose s.mem file }
  | none => s

variable (fs : List FsdataFile) (net : Net C σ)

/-- `http_close_conn` behind `http_state_free`. -/
def closePcb (s : HttpServer C σ) (c : C) : HttpServer C σ :=
  let r := net.tcpClose c s.world
  { s with world := r.2 }.setConn c (if r.1 = Err.ok then .free else .closing)

/-- `http_close_conn`. -/
def httpCloseConn (s : HttpServer C σ) (c : C) (hs : HttpState) : HttpServer C σ :=
  (s.stateFree hs).closePcb net c

/-- `http_send_data` and what it does with the connection. -/
def send (s : HttpServer C σ) (c : C) (hs : HttpState) : HttpServer C σ :=
  let r := httpSendData net c hs s.world
  let s := { s with world := r.world }
  if r.closed then s.httpCloseConn net c r.hs else s.setConn c (.active r.hs)

/-- `http_accept`. -/
def httpAccept (s : HttpServer C σ) (c : C) (memory : Bool) : HttpServer C σ :=
  let s := { s with world := net.newPcb c s.world }
  if memory then s.setConn c (.active {}) else s

/-- `pbuf_free(hs->req)`. -/
def freeReq (s : HttpServer C σ) (hs : HttpState) : HttpServer C σ × HttpState :=
  ({ s with pbufs := s.pbufs - hs.req.length }, { hs with req := [] })

/-- `http_recv`, with the pbufs `p` in hand; what comes while a file is sent is neither kept nor
    freed. Without `LWIP_HTTPD_SUPPORT_POST` nothing else can be under way. -/
def httpRecv (s : HttpServer C σ) (c : C) (hs : HttpState) (p : Option (List CStr)) (err : Err) :
    HttpServer C σ :=
  let s := { s with pbufs := s.pbufs + (p.getD []).length }
  match p with
  | none => s.httpCloseConn net c hs
  | some p =>
      if err ≠ .ok then { s with pbufs := s.pbufs - p.length }.httpCloseConn net c hs
      else if hs.handle.isSome then
        let r := s.freeReq hs
        r.1.setConn c (.active r.2)
      else
        match httpParseRequest fs net p hs s.mem s.world with
        | (.inprogress, hs, mem, w) => { s with mem := mem, world := w }.setConn c (.active hs)
        | (.ok, hs, mem, w) =>
            let r := { s with mem := mem, world := w }.freeReq hs
            r.1.send net c r.2
        | (.arg, hs, mem, w) =>
            let r := { s with mem := mem, world := w }.freeReq hs
            r.1.httpCloseConn net c r.2
        | (_, hs, mem, w) =>
            let r := { s with mem := mem, world := w }.freeReq hs
            r.1.setConn c (.active r.2)

/-- `http_sent`. -/
def httpSent (s : HttpServer C σ) (c : C) (hs : HttpState) : HttpServer C σ :=
  s.send net c { hs with retries := 0 }

/-- `http_poll`. -/
def httpPoll (s : HttpServer C σ) (c : C) (hs : HttpState) : HttpServer C σ :=
  let hs := { hs with retries := hs.retries + 1 }
  if hs.retries = httpdMaxRetries then s.httpCloseConn net c hs
  else if hs.handle.isSome then s.send net c hs
  else s.setConn c (.active hs)

/-- `http_err`. -/
def httpErr (s : HttpServer C σ) (c : C) (hs : HttpState) : HttpServer C σ :=
  (s.stateFree hs).setConn c .free

/-- A callback. A connection that is still to be closed has only `http_poll`. -/
def step (s : HttpServer C σ) : HttpEvent C σ → HttpServer C σ
  | .world f => { s with world := f s.world }
  | .accept c memory =>
      match s.conn c with
      | .free => s.httpAccept net c memory
      | _ => s
  | .recv c p err =>
      match s.conn c with
      | .active hs => s.httpRecv fs net c hs p err
      | _ => s
  | .sent c =>
      match s.conn c with
      | .active hs => s.httpSent net c hs
      | _ => s
  | .poll c =>
      match s.conn c with
      | .active hs => s.httpPoll net c hs
      | .closing => s.closePcb net c
      | .free => s
  | .err c =>
      match s.conn c with
      | .active hs => s.httpErr c hs
      | .closing => s.setConn c .free
      | .free => s

/-! ### What holds of every connection -/

end HttpServer

/-- The connection that a callback is for. -/
def HttpEvent.conn {C σ : Type*} : HttpEvent C σ → Option C
  | .accept c _ | .recv c _ _ | .sent c | .poll c | .err c => some c
  | .world _ => none

/-- What else happens sends nothing. -/
def HttpEvent.Quiet {C σ : Type*} (net : Net C σ) : HttpEvent C σ → Prop
  | .world f => ∀ c w, net.sent c (f w) = net.sent c w
  | _ => True

/-- The place of the file of a connection. -/
def Conn.place : Conn → Option FsPlace
  | .active hs => hs.handle.map FsFile.place
  | _ => none

/-- The pbufs that wait for the rest of a request. -/
def Conn.queued : Conn → ℕ
  | .active hs => hs.req.length
  | _ => 0

@[simp]
theorem Conn.queued_active (hs : HttpState) : (Conn.active hs).queued = hs.req.length := rfl

@[simp]
theorem Conn.queued_free : Conn.free.queued = 0 := rfl

@[simp]
theorem Conn.queued_closing : Conn.closing.queued = 0 := rfl

namespace HttpServer

open Web

variable {C σ : Type*} {fs : List FsdataFile} {net : Net C σ}

/-- The file of a connection is on its way, from its beginning or from behind its header. -/
def Job (fs : List FsdataFile) (net : Net C σ) (c : C) (file : FsFile) (hs : HttpState) (w : σ) :
    Prop :=
  (∃ f ∈ fs, file.data = f.data ∧ file.httpHeaderIncluded = f.httpHeaderIncluded) ∧
    ∃ is09 told, OnWay net c [] (httpInitFile {} (some file) is09).file told hs w ∧
      ∀ e ∈ told, Answered net e

/-- Without a file nothing has been sent; with one the request is gone. -/
structure StateOk (fs : List FsdataFile) (net : Net C σ) (c : C) (hs : HttpState) (w : σ) : Prop where
  retries : hs.retries < httpdMaxRetries
  waits : hs.handle = none → hs.left = 0 ∧ net.sent c w = []
  sends : ∀ file, hs.handle = some file → hs.req = [] ∧ hs.page = file.data ∧ Job fs net c file hs w

def ConnOk (fs : List FsdataFile) (net : Net C σ) (c : C) (w : σ) : Conn → Prop
  | .active hs => StateOk fs net c hs w
  | _ => True

theorem Job.congr {c : C} {file : FsFile} {hs : HttpState} {w w' : σ}
    (h : Job fs net c file hs w) (n : UInt8)
    (r : List CStr) (hw : net.sent c w' = net.sent c w) :
    Job fs net c file { hs with retries := n, req := r } w' := by
  obtain ⟨hserved, is09, told, honway, htold⟩ := h
  refine ⟨hserved, is09, told, ?_, htold⟩
  have hon := Delivery.onWay_world honway hw
  rw [OnWay] at hon ⊢
  split_ifs at hon ⊢
  · exact ⟨hon.left, hon.read, hon.start_lt, hon.start_le, hon.file_le, hon.index, hon.names, hon.shown⟩
  · exact ⟨⟨hon.1.left, hon.1.shown⟩, hon.2⟩

theorem StateOk.congr {c : C} {hs : HttpState} {w w' : σ} (h : StateOk fs net c hs w) {n : UInt8}
    (hn : n < httpdMaxRetries) (hw : net.sent c w' = net.sent c w) :
    StateOk fs net c { hs with retries := n } w' :=
  ⟨hn, fun hnone => ⟨(h.waits hnone).1, hw.trans (h.waits hnone).2⟩, fun file hfile =>
    ⟨(h.sends file hfile).1, (h.sends file hfile).2.1, (h.sends file hfile).2.2.congr n _ hw⟩⟩

theorem ConnOk.congr {c : C} {x : Conn} {w w' : σ} (h : ConnOk fs net c w x)
    (hw : net.sent c w' = net.sent c w) :
    ConnOk fs net c w' x := by
  cases x with
  | free | closing => trivial
  | active hs => exact StateOk.congr h h.retries hw

/-- TCP has taken a whole file with the answers for its tags, from its beginning, or from behind its
    header for a request of HTTP/0.9. -/
def Whole (fs : List FsdataFile) (net : Net C σ) (c : C) (w : σ) : Prop :=
  ∃ file, (∃ f ∈ fs, file.data = f.data ∧ file.httpHeaderIncluded = f.httpHeaderIncluded) ∧
    ∃ is09 tagCheck, ∃ told : List (CStr × CStr),
      net.sent c w = content tagCheck (httpInitFile {} (some file) is09).file file.data
      (shown file.data told) ∧
        (∀ e ∈ told, Answered net e) ∧
        (tagCheck = true → told.map Prod.fst = Weave.calls tagStep .none file.data)

/-- The file of a connection, when nothing of it is left. -/
theorem Job.whole {c : C} {file : FsFile} {hs : HttpState} {w : σ} (h : Job fs net c file hs w)
    (hpage : hs.page = file.data) (hleft : hs.left = 0) : Whole fs net c w := by
  obtain ⟨hserved, is09, told, honway, htold⟩ := h
  refine ⟨file, hserved, is09, hs.tagCheck, told, ?_, htold, fun htag => ?_⟩
  · rw [content_shown, ← hpage]
    exact honway.complete hleft
  · rw [← hpage]
    exact honway.all_names htag hleft

variable [DecidableEq C]

/-- Who has which place. -/
def held (s : HttpServer C σ) (c : C) : Option FsPlace := (s.conn c).place

/-- In every reachable state: the places in use are those of the files of the connections, one each. -/
structure Ok (fs : List FsdataFile) (net : Net C σ) (s : HttpServer C σ) : Prop where
  owned : Slots.Owned s.mem s.held
  conns : ∀ c, ConnOk fs net c s.world (s.conn c)

/-- While a callback runs for `c`: what it has in hand is `hs`. -/
structure Busy (fs : List FsdataFile) (net : Net C σ) (c : C) (hs : HttpState) (s : HttpServer C σ) :
    Prop where
  owned : Slots.Owned s.mem (Function.update s.held c (hs.handle.map FsFile.place))
  others : ∀ c' ≠ c, ConnOk fs net c' s.world (s.conn c')

variable {s : HttpServer C σ} {c : C} {hs : HttpState}

theorem Ok.busy (h : Ok fs net s) (hc : (s.conn c).place = hs.handle.map FsFile.place) :
    Busy fs net c hs s := by
  refine ⟨?_, fun c' _ => h.conns c'⟩
  have hself : hs.handle.map FsFile.place = s.held c := hc.symm
  rw [hself, Function.update_eq_self]
  exact h.owned

omit [DecidableEq C] in
theorem Ok.state (h : Ok fs net s) (hc : s.conn c = .active hs) : StateOk fs net c hs s.world := by
  have hconn := h.conns c
  rw [hc] at hconn
  exact hconn

theorem held_setConn (s : HttpServer C σ) (c : C) (x : Conn) :
    (s.setConn c x).held = Function.update s.held c x.place := by
  funext c'
  rcases eq_or_ne c' c with rfl | hne
  · simp [held, setConn]
  · simp [held, setConn, Function.update_of_ne hne]

/-- The callback is done with its connection. -/
theorem Busy.setConn (h : Busy fs net c hs s) {x : Conn} (hplace : x.place = hs.handle.map FsFile.place)
    (hx : ConnOk fs net c s.world x) : Ok fs net (s.setConn c x) := by
  constructor
  · rw [held_setConn, hplace]
    exact h.owned
  · intro c'
    rcases eq_or_ne c' c with rfl | hne
    · simpa [HttpServer.setConn] using hx
    · simpa [HttpServer.setConn, Function.update_of_ne hne] using h.others c' hne

/-- What else changes is the rest of the system, which sends nothing for the other connections. -/
theorem Busy.world (h : Busy fs net c hs s) {w : σ}
    (hw : ∀ c' ≠ c, net.sent c' w = net.sent c' s.world) :
    Busy fs net c hs { s with world := w } :=
  ⟨h.owned, fun c' hc => (h.others c' hc).congr (hw c' hc)⟩

theorem Busy.pbufs (h : Busy fs net c hs s) (n : ℕ) : Busy fs net c hs { s with pbufs := n } :=
  ⟨h.owned, h.others⟩

theorem Busy.of_handle (h : Busy fs net c hs s) {hs' : HttpState} (hhandle : hs'.handle = hs.handle) :
    Busy fs net c hs' s :=
  ⟨by rw [hhandle]; exact h.owned, h.others⟩

theorem Busy.stateFree (h : Busy fs net c hs s) (x : HttpState) (hx : x.handle = none) :
    Busy fs net c x (s.stateFree hs) := by
  have howned := h.owned
  rw [HttpServer.stateFree]
  cases hhandle : hs.handle with
  | none => exact h.of_handle (hx.trans hhandle.symm)
  | some file =>
    rw [hhandle] at howned
    refine ⟨?_, h.others⟩
    have hreleased := howned.release (i := file.place) (c := c) (Function.update_self ..)
    rw [Function.update_idem] at hreleased
    rw [hx]
    exact hreleased

theorem Busy.closePcb (h : Busy fs net c hs s) (hhandle : hs.handle = none) :
    Ok fs net (s.closePcb net c) := by
  have hworld := h.world (w := (net.tcpClose c s.world).2) fun c' _ => net.sent_tcpClose c c' s.world
  simp only [HttpServer.closePcb]
  refine hworld.setConn ?_ ?_
  · rw [hhandle]
    split_ifs <;> rfl
  · split_ifs <;> trivial

theorem Busy.httpCloseConn (h : Busy fs net c hs s) : Ok fs net (s.httpCloseConn net c hs) :=
  (h.stateFree {} rfl).closePcb rfl

/-! ### What ends a connection -/

/-- A connection is closed when there is nothing to send for it, or when all of it has been taken. -/
def Done (fs : List FsdataFile) (net : Net C σ) (c : C) (s : HttpServer C σ) : Prop :=
  (∀ hs, s.conn c ≠ .active hs) → net.sent c s.world = [] ∨ Whole fs net c s.world

theorem sent_httpCloseConn (s : HttpServer C σ) (c : C) (hs : HttpState) (c' : C) :
    net.sent c' (s.httpCloseConn net c hs).world = net.sent c' s.world := by
  have hworld : (s.stateFree hs).world = s.world := by
    rw [stateFree]
    split <;> rfl
  simp only [httpCloseConn, closePcb, setConn, net.sent_tcpClose, hworld]

@[simp]
theorem conn_setConn (s : HttpServer C σ) (c : C) (x : Conn) : (s.setConn c x).conn c = x :=
  Function.update_self ..

/-- `http_send_data` sends on, or it closes the connection. -/
theorem Busy.send (h : Busy fs net c hs s) (hok : StateOk fs net c hs s.world) :
    Ok fs net (s.send net c hs) ∧ Done fs net c (s.send net c hs) := by
  have hcalled := called_httpSendData net c hs s.world
  have hbusy := (h.world hcalled.others).of_handle hcalled.same.handle
  have hsends : ∀ file, (httpSendData net c hs s.world).hs.handle = some file →
      (httpSendData net c hs s.world).hs.req = [] ∧
      (httpSendData net c hs s.world).hs.page = file.data ∧
        Job fs net c file (httpSendData net c hs s.world).hs (httpSendData net c hs s.world).world := by
    intro file hfile
    rw [hcalled.same.handle] at hfile
    obtain ⟨hreq, hpage, hserved, is09, told, honway, htold⟩ := hok.sends file hfile
    refine ⟨hcalled.same.req.trans hreq, hcalled.same.page.trans hpage, hserved, is09,
      told ++ (httpSendData net c hs s.world).inserts, honway.httpSendData, fun e he => ?_⟩
    rcases List.mem_append.mp he with he | he
    · exact htold e he
    · exact hcalled.answered e he
  simp only [HttpServer.send]
  split_ifs with hclosed
  · refine ⟨hbusy.httpCloseConn, fun _ => ?_⟩
    have hleft := hcalled.left_of_closed hclosed
    cases hhandle : (httpSendData net c hs s.world).hs.handle with
    | none =>
      left
      rw [hcalled.same.handle] at hhandle
      obtain ⟨hzero, hsent⟩ := hok.waits hhandle
      rw [sent_httpCloseConn, httpSendData, if_pos hzero]
      exact hsent
    | some file =>
      right
      obtain ⟨-, hpage, hjob⟩ := hsends file hhandle
      obtain ⟨file, hserved, is09, tagCheck, told, hsent, hrest⟩ := hjob.whole hpage hleft
      exact ⟨file, hserved, is09, tagCheck, told, (sent_httpCloseConn ..).trans hsent, hrest⟩
  · refine ⟨hbusy.setConn rfl ⟨by rw [hcalled.same.retries]; exact hok.retries, fun hnone => ?_,
      hsends⟩, fun hne => ?_⟩
    · rw [hcalled.same.handle] at hnone
      rw [httpSendData, if_pos (hok.waits hnone).1] at hclosed
      exact absurd rfl hclosed
    · exact absurd (conn_setConn ..) (hne _)

/-- With nothing to send `http_send_data` closes the connection. -/
theorem Busy.send_nothing (h : Busy fs net c hs s) (hleft : hs.left = 0)
    (hsent : net.sent c s.world = []) :
    Ok fs net (s.send net c hs) ∧ Done fs net c (s.send net c hs) := by
  have hclose : s.send net c hs = s.httpCloseConn net c hs := by
    simp only [HttpServer.send, httpSendData, if_pos hleft, if_true]
  rw [hclose]
  exact ⟨h.httpCloseConn, fun _ => .inl ((sent_httpCloseConn ..).trans hsent)⟩

theorem httpInitFile_start (hs : HttpState) (file : FsFile) (is09 : Bool) :
    (httpInitFile hs (some file) is09).file = (httpInitFile {} (some file) is09).file ∧
      (httpInitFile hs (some file) is09).handle = some file ∧
      (httpInitFile hs (some file) is09).retries = 0 ∧
      (httpInitFile hs (some file) is09).req = hs.req := by
  simp only [httpInitFile]
  split_ifs
  · cases strnstr (crlf ++ crlf) file.data file.data.length <;> exact ⟨rfl, rfl, rfl, rfl⟩
  · exact ⟨rfl, rfl, rfl, rfl⟩

/-- The request has been read: the file for it is sent. -/
theorem Busy.found (h : Busy fs net c hs s) (hnone : hs.handle = none) (hreq : hs.req = [])
    (hsent : net.sent c s.world = []) (uri : CStr) (is09 : Bool) (n : ℕ) :
    let found := httpFindFile fs net hs uri is09 s.mem s.world
    let s' := HttpServer.send net { s with mem := found.2.1, world := found.2.2, pbufs := n } c found.1
    Ok fs net s' ∧ Done fs net c s' := by
  have hopened := findFile_opened fs net uri s.mem s.world
  have hworld := sent_findFile fs net uri s.mem s.world
  simp only [httpFindFile]
  revert hopened hworld
  generalize findFile fs net uri s.mem s.world = found
  obtain ⟨⟨file, tagCheck⟩, mem, w⟩ := found
  intro hopened hworld
  have howned := h.owned
  rw [hnone] at howned
  have hothers : ∀ c' ≠ c, ConnOk fs net c' w (s.conn c') := fun c' hc =>
    (h.others c' hc).congr (hworld c')
  cases file with
  | none =>
    simp only at hopened hworld ⊢
    refine Busy.send_nothing ⟨?_, hothers⟩ rfl ((hworld c).trans hsent)
    rw [hopened]
    exact howned
  | some file =>
    simp only at hopened hworld ⊢
    obtain ⟨hstart, hhandle, hretries, hreq'⟩ :=
      httpInitFile_start { hs with tagCheck := tagCheck } file is09
    obtain ⟨hpage, -⟩ := httpInitFile_some { hs with tagCheck := tagCheck } file is09
    have htaken := howned.take hopened.free (Function.update_self ..)
    rw [Function.update_idem, ← hopened.taken] at htaken
    have hbusy : Busy fs net c (httpInitFile { hs with tagCheck := tagCheck } (some file) is09)
        { s with mem := mem, world := w, pbufs := n } := ⟨by rw [hhandle]; exact htaken, hothers⟩
    by_cases hleft : (httpInitFile { hs with tagCheck := tagCheck } (some file) is09).left = 0
    · exact hbusy.send_nothing hleft ((hworld c).trans hsent)
    · refine hbusy.send ⟨by rw [hretries]; decide, fun hnone => ?_, fun file' hfile => ?_⟩
      · rw [hhandle] at hnone
        cases hnone
      · rw [hhandle, Option.some.injEq] at hfile
        subst hfile
        have honway := onWay_httpInitFile net c { hs with tagCheck := tagCheck } file is09 w hleft
        rw [hworld, hsent, hstart] at honway
        exact ⟨hreq'.trans hreq, hpage, hopened.served, is09, [], honway, by simp⟩

/-! ### Steps -/

/-- A callback of `http_recv`: what is not a request ends the connection. -/
theorem httpRecv_ok (h : Ok fs net s) (hc : s.conn c = .active hs) (p : Option (List CStr))
    (err : Err) :
    Ok fs net (s.httpRecv fs net c hs p err) ∧
      (p ≠ none → err = .ok → Done fs net c (s.httpRecv fs net c hs p err)) := by
  have hbusy : Busy fs net c hs s := h.busy (by rw [hc]; rfl)
  have hok : StateOk fs net c hs s.world := h.state hc
  cases p with
  | none => exact ⟨(hbusy.pbufs _).httpCloseConn, fun hp => absurd rfl hp⟩
  | some p =>
    simp only [httpRecv]
    split_ifs with herr hsome
    · exact ⟨((hbusy.pbufs _).pbufs _).httpCloseConn, fun _ herr' => absurd herr' herr⟩
    · refine ⟨((hbusy.pbufs _).pbufs _).setConn rfl ⟨hok.retries, hok.waits, fun file hfile => ?_⟩,
        fun _ _ hne =>
        absurd (conn_setConn ..) (hne _)⟩
      exact ⟨rfl, (hok.sends file hfile).2.1, (hok.sends file hfile).2.2.congr _ _ rfl⟩
    · have hnone : hs.handle = none := by simpa using hsome
      obtain ⟨hleft, hsent⟩ := hok.waits hnone
      rcases httpParseRequest_cases fs net p s.mem s.world hnone with
        ⟨uri, is09, hparse⟩ | hparse | hparse
      · have hfound := (show Busy fs net c { hs with req := [] } s from hbusy.of_handle rfl).found
          hnone rfl hsent uri is09
        simp only [httpFindFile_req] at hfound
        rw [hparse]
        simp only [freeReq, httpFindFile_req]
        exact ⟨(hfound _).1, fun _ _ => (hfound _).2⟩
      · rw [hparse]
        refine ⟨(hbusy.pbufs _).setConn rfl ⟨hok.retries, hok.waits, fun file hfile => ?_⟩,
          fun _ _ hne => ?_⟩
        · exact absurd (hnone.symm.trans hfile) (by simp)
        · exact absurd (conn_setConn ..) (hne _)
      · rw [hparse]
        refine ⟨(((hbusy.pbufs _).pbufs _).of_handle rfl).httpCloseConn, fun _ _ _ => .inl ?_⟩
        exact (sent_httpCloseConn ..).trans hsent

theorem httpSent_ok (h : Ok fs net s) (hc : s.conn c = .active hs) :
    Ok fs net (s.httpSent net c hs) ∧ Done fs net c (s.httpSent net c hs) := by
  have hbusy : Busy fs net c { hs with retries := 0 } s := h.busy (by rw [hc]; rfl)
  have hok : StateOk fs net c hs s.world := h.state hc
  exact hbusy.send (hok.congr (by decide) rfl)

theorem httpPoll_ok (h : Ok fs net s) (hc : s.conn c = .active hs) :
    Ok fs net (s.httpPoll net c hs) ∧
    (hs.retries + 1 ≠ httpdMaxRetries → Done fs net c (s.httpPoll net c hs)) := by
  have hbusy : Busy fs net c { hs with retries := hs.retries + 1 } s := h.busy (by rw [hc]; rfl)
  have hok : StateOk fs net c hs s.world := h.state hc
  simp only [httpPoll]
  split_ifs with hretries hsome
  · exact ⟨hbusy.httpCloseConn, fun hne => absurd hretries hne⟩
  all_goals
    have hlt : hs.retries + 1 < httpdMaxRetries := by
      have hbound := hok.retries
      simp only [httpdMaxRetries] at hbound hretries ⊢
      grind
  · have hsend := hbusy.send (hok.congr hlt rfl)
    exact ⟨hsend.1, fun _ => hsend.2⟩
  · exact ⟨hbusy.setConn rfl (hok.congr hlt rfl), fun _ hne => absurd (conn_setConn ..) (hne _)⟩

/-- The other side or TCP ends the connection, or there have been too many polls. -/
def Broken (s : HttpServer C σ) : HttpEvent C σ → Prop
  | .err _ | .recv _ none _ => True
  | .recv _ (some _) err => err ≠ .ok
  | .poll c => ∃ hs, s.conn c = .active hs ∧ hs.retries + 1 = httpdMaxRetries
  | _ => False

theorem step_ok {e : HttpEvent C σ} (h : Ok fs net s) (he : e.Quiet net) :
    Ok fs net (s.step fs net e) := by
  cases e with
  | world f => exact ⟨h.owned, fun c => (h.conns c).congr (he c _)⟩
  | accept c memory =>
    cases hc : s.conn c with
    | active hs | closing => simpa only [step, hc] using h
    | free =>
      have hbusy : Busy fs net c {} { s with world := net.newPcb c s.world } :=
        (h.busy (by rw [hc]; rfl)).world fun c' hc' => net.sent_newPcb_of_ne c c' _ hc'
      simp only [step, hc, httpAccept]
      split_ifs
      · exact hbusy.setConn rfl ⟨by decide, fun _ => ⟨rfl, net.sent_newPcb ..⟩,
          fun file hfile => by cases hfile⟩
      · refine ⟨h.owned, fun c' => ?_⟩
        rcases eq_or_ne c' c with rfl | hne
        · simp only [hc, ConnOk]
        · exact hbusy.others c' hne
  | recv c p err =>
    cases hc : s.conn c with
    | free | closing => simpa only [step, hc] using h
    | active hs => simpa only [step, hc] using (httpRecv_ok h hc p err).1
  | sent c =>
    cases hc : s.conn c with
    | free | closing => simpa only [step, hc] using h
    | active hs => simpa only [step, hc] using (httpSent_ok h hc).1
  | poll c =>
    cases hc : s.conn c with
    | free => simpa only [step, hc] using h
    | active hs => simpa only [step, hc] using (httpPoll_ok h hc).1
    | closing =>
      have hbusy : Busy fs net c {} s := h.busy (by rw [hc]; rfl)
      simpa only [step, hc] using hbusy.closePcb rfl
  | err c =>
    cases hc : s.conn c with
    | free => simpa only [step, hc] using h
    | active hs =>
      have hbusy : Busy fs net c hs s := h.busy (by rw [hc]; rfl)
      simpa only [step, hc, httpErr] using (hbusy.stateFree {} rfl).setConn (x := .free) rfl trivial
    | closing =>
      have hbusy : Busy fs net c {} s := h.busy (by rw [hc]; rfl)
      simpa only [step, hc] using hbusy.setConn (x := .free) rfl trivial

/-! ### A callback changes no connection but its own -/

section Frame

variable {c' : C} (hne : c ≠ c')

include hne

theorem conn_setConn_of_ne (s : HttpServer C σ) (x : Conn) : (s.setConn c' x).conn c = s.conn c :=
  Function.update_of_ne hne ..

theorem conn_httpCloseConn_of_ne (s : HttpServer C σ) (hs : HttpState) :
    (s.httpCloseConn net c' hs).conn c = s.conn c := by
  have hfree : (s.stateFree hs).conn = s.conn := by
    rw [stateFree]
    split <;> rfl
  simp only [httpCloseConn, closePcb, conn_setConn_of_ne hne, hfree]

theorem conn_send_of_ne (s : HttpServer C σ) (hs : HttpState) :
    (s.send net c' hs).conn c = s.conn c := by
  simp only [send]
  split_ifs
  · exact conn_httpCloseConn_of_ne hne ..
  · exact conn_setConn_of_ne hne ..

theorem conn_httpRecv_of_ne (s : HttpServer C σ) (hs : HttpState) (p : Option (List CStr)) (err : Err) :
    (s.httpRecv fs net c' hs p err).conn c = s.conn c := by
  cases p with
  | none => exact conn_httpCloseConn_of_ne hne ..
  | some p =>
    simp only [httpRecv]
    split_ifs
    · exact conn_httpCloseConn_of_ne hne ..
    · exact conn_setConn_of_ne hne ..
    · split
      · exact conn_setConn_of_ne hne ..
      · exact conn_send_of_ne hne ..
      · exact conn_httpCloseConn_of_ne hne ..
      · exact conn_setConn_of_ne hne ..

end Frame

theorem conn_step_of_ne {e : HttpEvent C σ} {c : C} (he : e.conn ≠ some c) :
    (s.step fs net e).conn c = s.conn c := by
  have hne {c' : C} (heq : e.conn = some c') : c ≠ c' := fun h => he (by rw [heq, h])
  cases e with
  | world f => rfl
  | accept c' memory =>
    simp only [step, httpAccept]
    split
    · split_ifs
      · exact conn_setConn_of_ne (hne rfl) ..
      · rfl
    · rfl
  | recv c' p err =>
    simp only [step]
    split
    · exact conn_httpRecv_of_ne (hne rfl) ..
    · rfl
  | sent c' =>
    simp only [step]
    split
    · exact conn_send_of_ne (hne rfl) ..
    · rfl
  | poll c' =>
    simp only [step, httpPoll]
    split
    · split_ifs
      · exact conn_httpCloseConn_of_ne (hne rfl) ..
      · exact conn_send_of_ne (hne rfl) ..
      · exact conn_setConn_of_ne (hne rfl) ..
    · exact conn_setConn_of_ne (hne rfl) ..
    · rfl
  | err c' =>
    simp only [step, httpErr]
    split
    · rename_i hs _
      have hfree : (s.stateFree hs).conn = s.conn := by
        rw [stateFree]
        split <;> rfl
      rw [conn_setConn_of_ne (hne rfl), hfree]
    · exact conn_setConn_of_ne (hne rfl) ..
    · rfl

/-- A connection that is not broken is closed only when all has been sent, or when there is nothing
    to send. -/
theorem step_done {e : HttpEvent C σ} (h : Ok fs net s) (hc : s.conn c = .active hs)
    (hb : ¬Broken s e) :
    Done fs net c (s.step fs net e) := by
  by_cases he : e.conn = some c
  · cases e with
    | world f => cases he
    | accept c' memory =>
      obtain rfl : c' = c := by simpa [HttpEvent.conn] using he
      intro hne
      exact absurd (by simp [step, hc]) (hne hs)
    | recv c' p err =>
      obtain rfl : c' = c := by simpa [HttpEvent.conn] using he
      cases p with
      | none => exact absurd trivial hb
      | some p =>
        have herr : err = .ok := by simpa [Broken] using hb
        simpa only [step, hc] using (httpRecv_ok h hc (some p) err).2 (by simp) herr
    | sent c' =>
      obtain rfl : c' = c := by simpa [HttpEvent.conn] using he
      simpa only [step, hc] using (httpSent_ok h hc).2
    | poll c' =>
      obtain rfl : c' = c := by simpa [HttpEvent.conn] using he
      simpa only [step, hc] using (httpPoll_ok h hc).2 fun hretries => hb ⟨hs, hc, hretries⟩
    | err c' => exact absurd trivial hb
  · intro hne
    exact absurd ((conn_step_of_ne he).trans hc) (hne hs)

/-! ### Runs -/

/-- `httpd_init`, and nobody has connected. -/
def init (w : σ) : HttpServer C σ :=
  { conn := fun _ => .free, mem := fun _ => false, pbufs := 0, world := w }

variable (fs) in
theorem ok_run (w : σ) {es : List (HttpEvent C σ)} (hes : ∀ e ∈ es, e.Quiet net) :
    Ok fs net (es.foldl (step fs net) (init w)) :=
  Run.foldl_inv_of_mem (Ok fs net) (fun e he _ hs => step_ok hs (hes e he)) ⟨Slots.owned_empty,
    fun _ => trivial⟩

/-- Every place in use belongs to the file of one connection, so none is lost; for want of a place
    no file can be opened exactly when ten connections have one. -/
theorem places_run [Fintype C] (w : σ) {es : List (HttpEvent C σ)} (hes : ∀ e ∈ es, e.Quiet net) :
    let s := es.foldl (step fs net) (init w)
    (∀ i, s.mem i = true ↔ ∃ c, (s.conn c).place = some i) ∧
      (∀ c c' i, (s.conn c).place = some i → (s.conn c').place = some i → c = c') ∧
      ((fsMalloc s.mem).1 = none ↔
      (Finset.univ.filter fun c => (s.conn c).place.isSome).card = lwipMaxOpenFiles) := by
  have howned := (ok_run fs w hes).owned
  refine ⟨howned.used_iff, howned.unique, fsMalloc_eq_none.trans ?_⟩
  rw [← howned.card_eq_card, Fintype.card_fin]
  rfl

/-- A site of one page, which has a tag. -/
def pageFs : List FsdataFile := [⟨lit "/a.shtml", Delivery.samplePieces.flatMap Piece.bytes, true⟩]

/-- Its file is sent at once and closed, while something else goes on. -/
theorem places_run_openLine :
    let s := [HttpEvent.accept () true, .world id,
    .recv () (some [lit "GET /a.shtml HTTP/1.0\r\n"]) .ok].foldl
      (step pageFs openNet) (init firstWorld)
    (∀ i, s.mem i = true ↔ ∃ c, (s.conn c).place = some i) ∧
      (∀ c c' i, (s.conn c).place = some i → (s.conn c').place = some i → c = c') ∧
      ((fsMalloc s.mem).1 = none ↔
      (Finset.univ.filter fun c => (s.conn c).place.isSome).card = lwipMaxOpenFiles) :=
  places_run _ (by simp [HttpEvent.Quiet])

/-- All or nothing: what TCP has taken for a connection with a file is a beginning of the page, from
    where `http_init_file` has put it, and a connection that is not broken is closed only when that
    is the whole page, or when nothing is sent at all. -/
theorem closed_whole (w : σ) {es : List (HttpEvent C σ)} (hes : ∀ e ∈ es, e.Quiet net) {c : C}
    {hs : HttpState}
    (hc : (es.foldl (step fs net) (init w)).conn c = .active hs) :
    let s := es.foldl (step fs net) (init w)
    (∀ file, hs.handle = some file → ∃ is09, ∃ told : List (CStr × CStr), (∀ e ∈ told, Answered net e) ∧
      ∀ ins, net.sent c s.world <+:
        content hs.tagCheck (httpInitFile {} (some file) is09).file file.data
        (told.map Prod.snd ++ ins)) ∧
      ∀ e, ¬Broken s e → (∀ hs', (s.step fs net e).conn c ≠ .active hs') →
        net.sent c (s.step fs net e).world = [] ∨ Whole fs net c (s.step fs net e).world := by
  have hrun := ok_run fs w hes
  simp only
  generalize es.foldl (step fs net) (init w) = s at hrun hc ⊢
  have hok : StateOk fs net c hs s.world := hrun.state hc
  refine ⟨fun file hfile => ?_, fun e hb => step_done hrun hc hb⟩
  obtain ⟨-, hpage, -, is09, told, honway, htold⟩ := hok.sends file hfile
  refine ⟨is09, told, htold, fun ins => ?_⟩
  rw [← hpage]
  exact honway.begins ins

/-- The connection when the request for the page has been read. -/
def pageState : HttpState :=
  (httpFindFile pageFs openNet {} (lit "/a.shtml") false (fun _ => false) firstWorld).1

/-- The page is sent with the state of the device behind its tag. -/
theorem closed_whole_openLine :
    let s := [HttpEvent.accept () true].foldl (step pageFs openNet) (init firstWorld)
    let s' := s.step pageFs openNet (.recv () (some [lit "GET /a.shtml HTTP/1.0\r\n"]) .ok)
    openNet.sent () s'.world = lit "<p><!--#c-->7</p>" ∧
      (openNet.sent () s'.world = [] ∨ Whole pageFs openNet () s'.world) := by
  intro s s'
  have hsend : httpSendData openNet () pageState firstWorld = _ :=
    httpSendData_of_turns openNet () 24 (by decide +kernel) (by decide +kernel) (by decide +kernel)
      (by decide +kernel)
  have hclosed : (httpSendData openNet () pageState firstWorld).closed = true := by
    rw [hsend]
    decide +kernel
  have htext : openNet.sent () (httpSendData openNet () pageState firstWorld).world = lit
    "<p><!--#c-->7</p>" := by
    rw [hsend]
    decide +kernel
  have hstep : ∃ s₀ : HttpServer Unit (CStr × Site), s₀.world = firstWorld ∧
    s' = s₀.send openNet () pageState :=
    ⟨_, rfl, rfl⟩
  obtain ⟨s₀, hworld, hs'⟩ := hstep
  rw [HttpServer.send, hworld, hclosed, if_pos rfl] at hs'
  have hfree : s'.conn () = .free := by
    rw [hs', httpCloseConn, closePcb, conn_setConn]
    exact if_pos rfl
  refine ⟨?_, (closed_whole firstWorld (by simp [HttpEvent.Quiet]) rfl).2
    (.recv () (some [lit "GET /a.shtml HTTP/1.0\r\n"]) .ok) (by simp [Broken]) fun hs h => ?_⟩
  · rw [hs', sent_httpCloseConn]
    exact htext
  · exact absurd (hfree.symm.trans h) (by simp)

end HttpServer

end VectorFence
