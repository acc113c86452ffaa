import VectorFence.Web.Connections

/-! The pbufs that TCP gives to the web server, and how long a connection may be idle. Three kinds
    of pbuf are never freed: what comes while a file is sent, and a request that waits when its
    connection ends, because the other side or TCP ends it or because it was polled too often. -/

namespace VectorFence

open CStr

namespace HttpServer

open Web

variable {C σ : Type*} [DecidableEq C] {fs : List FsdataFile} {net : Net C σ}

/-- The pbufs that a callback leaves to nobody. -/
def lost (s : HttpServer C σ) (e : HttpEvent C σ) : ℕ :=
  match e.conn.map s.conn, e with
  | some (.active hs), .recv _ (some p) .ok => if hs.handle.isSome then p.length else 0
  | some (.active hs), .recv _ _ _ => hs.req.length
  | some (.active hs), .err _ => hs.req.length
  | some (.active hs), .sent _ => hs.req.length
  | some (.active hs), .poll _ => if hs.retries + 1 = httpdMaxRetries then hs.req.length else 0
  | _, _ => 0

/-- And those of a whole run. -/
def lostOver (fs : List FsdataFile) (net : Net C σ) : List (HttpEvent C σ) → HttpServer C σ → ℕ
  | [], _ => 0
  | e :: es, s => s.lost e + lostOver fs net es (s.step fs net e)

variable {s : HttpServer C σ} {c : C} {hs : HttpState}

theorem pbufs_httpCloseConn (s : HttpServer C σ) (hs : HttpState) :
    (s.httpCloseConn net c hs).pbufs = s.pbufs := by
  simp only [httpCloseConn, closePcb, setConn, stateFree]
  split <;> rfl

theorem queued_httpCloseConn (s : HttpServer C σ) (hs : HttpState) :
    ((s.httpCloseConn net c hs).conn c).queued = 0 := by
  simp only [httpCloseConn, closePcb, conn_setConn]
  split_ifs <;> rfl

theorem pbufs_send (s : HttpServer C σ) (hs : HttpState) : (s.send net c hs).pbufs = s.pbufs := by
  simp only [send]
  split_ifs
  · exact pbufs_httpCloseConn ..
  · rfl

variable (net c) in
/-- What a connection waits for is what `http_send_data` leaves, unless it closes the connection. -/
theorem queued_send (s : HttpServer C σ) (hs : HttpState) (hreq : hs.req = []) :
    ((s.send net c hs).conn c).queued = 0 := by
  simp only [send]
  split_ifs
  · exact queued_httpCloseConn ..
  · have hsame := (called_httpSendData net c hs s.world).same.req
    rw [conn_setConn, Conn.queued_active, hsame, hreq]
    rfl

omit [DecidableEq C] in
theorem StateOk.req (h : StateOk fs net c hs s.world) (hsome : hs.handle ≠ none) : hs.req = [] := by
  obtain ⟨file, hfile⟩ := Option.ne_none_iff_exists'.mp hsome
  exact (h.sends file hfile).1

/-- Without a file `http_send_data` ends the connection, and the request that waits is lost. -/
theorem queued_send_nothing (h : StateOk fs net c hs s.world) (hnone : hs.handle = none) :
    ((s.send net c hs).conn c).queued = 0 := by
  simp only [send, httpSendData, if_pos (h.waits hnone).1, if_true]
  exact queued_httpCloseConn ..

theorem pbufs_httpRecv (h : Ok fs net s) (hc : s.conn c = .active hs) (hle : hs.req.length ≤ s.pbufs)
    (p : Option (List CStr)) (err : Err) :
    (s.httpRecv fs net c hs p err).pbufs + hs.req.length =
      s.pbufs + ((s.httpRecv fs net c hs p err).conn c).queued + s.lost (.recv c p err) := by
  have hok : StateOk fs net c hs s.world := h.state hc
  cases p with
  | none => simp [httpRecv, pbufs_httpCloseConn, queued_httpCloseConn, lost, HttpEvent.conn, hc]
  | some p =>
    by_cases herr : err = .ok
    · subst herr
      by_cases hnone : hs.handle = none
      · rcases httpParseRequest_cases fs net p s.mem s.world hnone with
          ⟨uri, is09, hparse⟩ | hparse | hparse
        · simp only [httpRecv, hnone, hparse, freeReq, req_httpFindFile, Option.isSome_none,
            Bool.false_eq_true, if_false,
            ne_eq, not_true_eq_false, pbufs_send, lost, HttpEvent.conn, hc, Option.map_some,
            Option.getD_some,
            List.length_append]
          rw [queued_send _ _ _ _ rfl]
          omega
        · simp [httpRecv, hnone, hparse, lost, HttpEvent.conn, hc, setConn]
          omega
        · simp [httpRecv, hnone, hparse, lost, HttpEvent.conn, hc, freeReq, pbufs_httpCloseConn,
            queued_httpCloseConn]
          omega
      · have hreq : hs.req = [] := StateOk.req hok hnone
        have hsome : hs.handle.isSome := by simpa [Option.isSome_iff_ne_none] using hnone
        simp [httpRecv, hsome, lost, HttpEvent.conn, hc, freeReq, setConn, hreq]
    · have hlost : s.lost (.recv c (some p) err) = hs.req.length := by
        cases err <;> simp_all [lost, HttpEvent.conn]
      simp [httpRecv, herr, pbufs_httpCloseConn, queued_httpCloseConn, hlost]

theorem pbufs_httpSent (h : Ok fs net s) (hc : s.conn c = .active hs) :
    (s.httpSent net c hs).pbufs + hs.req.length =
      s.pbufs + ((s.httpSent net c hs).conn c).queued + s.lost (.sent c : HttpEvent C σ) := by
  have hok : StateOk fs net c hs s.world := h.state hc
  have hqueued : ((s.httpSent net c hs).conn c).queued = 0 := by
    by_cases hnone : hs.handle = none
    · exact queued_send_nothing (hok.congr (by decide) rfl) hnone
    · have hreq : hs.req = [] := StateOk.req hok hnone
      exact queued_send net c s { hs with retries := 0 } hreq
  rw [hqueued]
  simp [httpSent, pbufs_send, lost, HttpEvent.conn, hc]

theorem pbufs_httpPoll (h : Ok fs net s) (hc : s.conn c = .active hs) :
    (s.httpPoll net c hs).pbufs + hs.req.length =
      s.pbufs + ((s.httpPoll net c hs).conn c).queued + s.lost (.poll c : HttpEvent C σ) := by
  have hok : StateOk fs net c hs s.world := h.state hc
  by_cases hretries : hs.retries + 1 = httpdMaxRetries
  · simp [httpPoll, hretries, pbufs_httpCloseConn, queued_httpCloseConn, lost, HttpEvent.conn, hc]
  · by_cases hnone : hs.handle = none
    · simp [httpPoll, hretries, hnone, lost, HttpEvent.conn, hc, setConn]
    · have hreq : hs.req = [] := StateOk.req hok hnone
      have hsome : hs.handle.isSome := by simpa [Option.isSome_iff_ne_none] using hnone
      have hqueued := queued_send net c s { hs with retries := hs.retries + 1 } hreq
      simp only [httpPoll, hretries, if_false, hsome, if_true, pbufs_send, lost, HttpEvent.conn, hc,
        Option.map_some]
      rw [hqueued, hreq]
      rfl

/-- What a callback does with the pbufs of its connection. -/
theorem pbufs_step {e : HttpEvent C σ} (h : Ok fs net s) (he : e.conn = some c)
    (hle : (s.conn c).queued ≤ s.pbufs) :
    (s.step fs net e).pbufs + (s.conn c).queued =
      s.pbufs + ((s.step fs net e).conn c).queued + s.lost e := by
  cases hc : s.conn c with
  | free =>
    cases e with
    | world f => cases he
    | accept c' memory =>
      obtain rfl : c' = c := by simpa [HttpEvent.conn] using he
      cases memory <;> simp [step, hc, httpAccept, lost, HttpEvent.conn, setConn]
    | recv c' | sent c' | poll c' | err c' =>
      obtain rfl : c' = c := by simpa [HttpEvent.conn] using he
      simp [step, hc, lost, HttpEvent.conn]
  | closing =>
    cases e with
    | world f => cases he
    | accept c' | recv c' | sent c' =>
      obtain rfl : c' = c := by simpa [HttpEvent.conn] using he
      simp [step, hc, lost, HttpEvent.conn]
    | err c' =>
      obtain rfl : c' = c := by simpa [HttpEvent.conn] using he
      simp [step, hc, lost, HttpEvent.conn, setConn]
    | poll c' =>
      obtain rfl : c' = c := by simpa [HttpEvent.conn] using he
      have hqueued : ((s.closePcb net c').conn c').queued = 0 := by
        simp only [closePcb, conn_setConn]
        split_ifs <;> rfl
      have hsame : (s.closePcb net c').pbufs = s.pbufs := rfl
      simp [step, hc, lost, HttpEvent.conn, hqueued, hsame]
  | active hs =>
    have hreq : hs.req.length ≤ s.pbufs := by simpa [hc] using hle
    cases e with
    | world f => cases he
    | accept c' =>
      obtain rfl : c' = c := by simpa [HttpEvent.conn] using he
      simp [step, hc, lost, HttpEvent.conn]
    | recv c' p err =>
      obtain rfl : c' = c := by simpa [HttpEvent.conn] using he
      simpa only [step, hc, Conn.queued_active] using pbufs_httpRecv h hc hreq p err
    | sent c' =>
      obtain rfl : c' = c := by simpa [HttpEvent.conn] using he
      simpa only [step, hc, Conn.queued_active] using pbufs_httpSent h hc
    | poll c' =>
      obtain rfl : c' = c := by simpa [HttpEvent.conn] using he
      simpa only [step, hc, Conn.queued_active] using pbufs_httpPoll h hc
    | err c' =>
      obtain rfl : c' = c := by simpa [HttpEvent.conn] using he
      have hsame : (s.stateFree hs).pbufs = s.pbufs := by
        rw [stateFree]
        split <;> rfl
      simp only [step, hc, httpErr, conn_setConn, lost, HttpEvent.conn, Option.map_some]
      exact congrArg (· + hs.req.length) hsame

section Counting

variable [Fintype C]

/-- All requests that wait. -/
def waiting (s : HttpServer C σ) : ℕ := ∑ c, (s.conn c).queued

variable (fs net) in
theorem waiting_step {e : HttpEvent C σ} (he : e.conn = some c) :
    (s.step fs net e).waiting + (s.conn c).queued = s.waiting + ((s.step fs net e).conn c).queued := by
  have hrest : ∑ c' ∈ Finset.univ.erase c, ((s.step fs net e).conn c').queued =
      ∑ c' ∈ Finset.univ.erase c, (s.conn c').queued := by
    refine Finset.sum_congr rfl fun c' hc' => ?_
    have hne : e.conn ≠ some c' := by
      rw [he]
      exact fun heq => Finset.ne_of_mem_erase hc' (Option.some.inj heq).symm
    rw [conn_step_of_ne hne]
  rw [waiting, waiting, ← Finset.add_sum_erase _ _ (Finset.mem_univ c), hrest,
    ← Finset.add_sum_erase _ (fun c' => (s.conn c').queued) (Finset.mem_univ c)]
  omega

theorem pbufs_foldl : ∀ (es : List (HttpEvent C σ)), (∀ e ∈ es, e.Quiet net) →
    ∀ {s : HttpServer C σ} {n : ℕ},
    Ok fs net s → s.pbufs = s.waiting + n →
      (es.foldl (step fs net) s).pbufs = (es.foldl (step fs net) s).waiting + (n + lostOver fs net es s)
  | [], _, s, n, _, h => by simpa [lostOver] using h
  | e :: es, hes, s, n, hok, h => by
      obtain ⟨he, hes⟩ := List.forall_mem_cons.mp hes
      have hstep : (s.step fs net e).pbufs = (s.step fs net e).waiting + (n + s.lost e) := by
        cases hc : e.conn with
        | none =>
          cases e with
          | world f => exact h
          | accept c | recv c | sent c | poll c | err c => cases hc
        | some c =>
          have hle : (s.conn c).queued ≤ s.waiting :=
            Finset.single_le_sum (f := fun c => (s.conn c).queued) (fun _ _ => Nat.zero_le _)
              (Finset.mem_univ c)
          have hpbufs := pbufs_step hok hc (by omega)
          have hwaiting := waiting_step fs net (s := s) hc
          omega
      rw [List.foldl_cons, lostOver, ← Nat.add_assoc n]
      exact pbufs_foldl es hes (step_ok hok he) hstep

/-- Of the pbufs that came in those are not free that wait with a connection, and those that were
    lost. -/
theorem pbufs_run (w : σ) {es : List (HttpEvent C σ)} (hes : ∀ e ∈ es, e.Quiet net) :
    (es.foldl (step fs net) (init w)).pbufs =
      ∑ c, ((es.foldl (step fs net) (init w)).conn c).queued + lostOver fs net es (init w) := by
  have hinit : Ok fs net (init w) := ok_run fs w (List.forall_mem_nil _)
  have hrun := pbufs_foldl es hes hinit (n := 0) (by simp [init, waiting])
  rwa [Nat.zero_add] at hrun

/-- Half a request, and the other side hangs up. -/
theorem pbufs_run_openLine :
    let es : List (HttpEvent Unit (CStr × Site)) :=
      [.accept () true, .recv () (some [lit "GET /index"]) .ok, .recv () none .ok]
    let s := es.foldl (step [] openNet) (init firstWorld)
    s.pbufs = ∑ c, (s.conn c).queued + lostOver [] openNet es (init firstWorld) :=
  pbufs_run firstWorld (by simp [HttpEvent.Quiet])

end Counting

/-! ### Idle connections -/

/-- The callbacks for a connection. -/
def calls (c : C) : List (HttpEvent C σ) → ℕ
  | [] => 0
  | e :: es => (if e.conn = some c then 1 else 0) + calls c es

theorem conn_httpCloseConn (s : HttpServer C σ) (hs hs' : HttpState) :
    (s.httpCloseConn net c hs).conn c ≠ .active hs' := by
  simp only [httpCloseConn, closePcb, conn_setConn]
  split_ifs <;> simp

/-- A poll counts, or it closes the connection. -/
theorem retries_httpPoll (h : StateOk fs net c hs s.world) {hs' : HttpState}
    (hc : (s.httpPoll net c hs).conn c = .active hs') : hs'.retries.toNat = hs.retries.toNat + 1 := by
  have hretries : (hs.retries + 1).toNat = hs.retries.toNat + 1 := by
    have hlt := h.retries
    rw [httpdMaxRetries, UInt8.lt_iff_toNat_lt] at hlt
    rw [UInt8.toNat_add]
    exact Nat.mod_eq_of_lt (by have : (4 : UInt8).toNat = 4 := rfl; have : (1
      : UInt8).toNat = 1 := rfl; omega)
  rw [← hretries]
  simp only [httpPoll] at hc
  split_ifs at hc
  · exact absurd hc (conn_httpCloseConn _ _ _)
  · simp only [send] at hc
    split_ifs at hc
    · exact absurd hc (conn_httpCloseConn _ _ _)
    · rw [conn_setConn, Conn.active.injEq] at hc
      rw [← hc, (called_httpSendData ..).same.retries]
  · rw [conn_setConn, Conn.active.injEq] at hc
    rw [← hc]

theorem retries_step {n : ℕ} {e : HttpEvent C σ} (h : Ok fs net s) (he : e.conn = some c → e = .poll c)
    (hn : ∀ hs, s.conn c = .active hs → n ≤ hs.retries.toNat) :
    ∀ hs, (s.step fs net e).conn c = .active hs → n +
    (if e.conn = some c then 1 else 0) ≤ hs.retries.toNat := by
  intro hs' hc'
  by_cases hself : e.conn = some c
  · obtain rfl := he hself
    rw [if_pos hself]
    cases hc : s.conn c with
    | free => simp [step, hc] at hc'
    | closing =>
      simp only [step, hc, closePcb, conn_setConn] at hc'
      split_ifs at hc'
    | active hs =>
      have hok : StateOk fs net c hs s.world := h.state hc
      simp only [step, hc] at hc'
      have hpoll := retries_httpPoll hok hc'
      have := hn hs hc
      omega
  · rw [if_neg hself, Nat.add_zero]
    rw [conn_step_of_ne hself] at hc'
    exact hn hs' hc'

theorem retries_foldl : ∀ {es : List (HttpEvent C σ)} {s : HttpServer C σ} {n : ℕ}, Ok fs net s →
    (∀ e ∈ es, e.Quiet net) → (∀ e ∈ es, e.conn = some c → e = .poll c) →
    (∀ hs, s.conn c = .active hs → n ≤ hs.retries.toNat) →
      ∀ hs, (es.foldl (step fs net) s).conn c = .active hs → n + calls c es ≤ hs.retries.toNat
  | [], _, _, _, _, _, hn => hn
  | e :: es, s, n, hok, hquiet, hpolls, hn => by
      obtain ⟨he, hquiet⟩ := List.forall_mem_cons.mp hquiet
      obtain ⟨hpoll, hpolls⟩ := List.forall_mem_cons.mp hpolls
      rw [List.foldl_cons, calls, ← Nat.add_assoc n]
      exact retries_foldl (step_ok hok he) hquiet hpolls (retries_step hok hpoll hn)

/-- For a connection of which TCP has nothing new to say `http_close_conn` is called at the fourth
    poll at the latest, whatever happens elsewhere. Where `tcp_close` fails, the polls after it try
    again. -/
theorem idle_closed (w : σ) {es es' : List (HttpEvent C σ)} (hes : ∀ e ∈ es, e.Quiet net)
    (hes' : ∀ e ∈ es', e.Quiet net) {c : C} (hpolls : ∀ e ∈ es', e.conn = some c → e = .poll c)
    (hcalls : 4 ≤ calls c es') (hs : HttpState) :
    ((es ++ es').foldl (step fs net) (init w)).conn c ≠ .active hs := by
  intro hc
  have hok := ok_run fs w hes
  have hrun : Ok fs net ((es ++ es').foldl (step fs net) (init w)) :=
    ok_run fs w fun e he => (List.mem_append.mp he).elim (hes e) (hes' e)
  have hend := hrun.state hc
  rw [List.foldl_append] at hc
  have hretries := retries_foldl hok hes' hpolls (n := 0) (fun _ _ => Nat.zero_le _) hs hc
  have hlt := UInt8.lt_iff_toNat_lt.mp hend.retries
  have hmax : httpdMaxRetries.toNat = 4 := rfl
  omega

theorem idle_closed_openLine :
    let es : List (HttpEvent Unit (CStr × Site)) := [.accept () true]
    let es' : List (HttpEvent Unit (CStr × Site)) := [.poll (), .poll (), .world id, .poll (), .poll ()]
    ∀ hs, ((es ++ es').foldl (step [] openNet) (init firstWorld)).conn () ≠ .active hs :=
  idle_closed firstWorld (by simp [HttpEvent.Quiet]) (by simp [HttpEvent.Quiet])
    (by simp [HttpEvent.conn]) (by decide)

end HttpServer

end VectorFence
