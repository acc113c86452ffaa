import VectorFence.Lib.Segments
import VectorFence.Tcp.Server

/-! What the server makes of a stream of requests that the network delivers in other pieces. Every
    buffer is taken for one request, so

        requests    m₀ m₁ m₂ m₃ …
        buffers     m₀ m₁ │ q …        q: the first buffer that is not exactly one request

    `m₀` and `m₁` are carried out; `q` is answered with one error frame, and its connection ends. -/

namespace VectorFence.Server

open Tcp Segments

/-- The buffers a connection delivers, no other connection coming in between. -/
def received (bufs : List Netbuf) : List Io := bufs.map fun recvbuf => ⟨false, some recvbuf, true⟩

/-- A connection is being served. -/
def connected (s : Server) : Bool :=
  match s.pc with
  | .serving _ => true
  | _ => false

/-- The frames that were sent. -/
def replies (s : Server) : List (List UInt8) := s.trace.filterMap Event.written

/-- The answer to a buffer that is not one request. -/
def errorReply (recvbuf : Netbuf) : List UInt8 :=
  tcpSendErr (byteAt recvbuf.bytes 2) (byteAt recvbuf.bytes 4)

/-- The buffers up to the first one that is not exactly one request. -/
def intactBufs (bufs : List Netbuf) : List Netbuf := bufs.takeWhile fun b => decide (Whole b.bytes)

/-! ### The bytes decide -/

theorem whole_prefixFree : PrefixFree Whole := by
  rintro a b ⟨ha2, -, ha⟩ ⟨-, -, hb⟩ ⟨t, rfl⟩
  -- the length byte is in the shorter one
  have h1 : byteAt (a ++ t) 1 = byteAt a 1 := by
    rw [byteAt, byteAt, List.getD_eq_getElem?_getD, List.getD_eq_getElem?_getD,
      List.getElem?_append_left (by omega)]
  rw [h1, List.length_append] at hb
  have ht : t = [] := List.length_eq_zero_iff.mp (by omega)
  rw [ht, List.append_nil]

theorem turn_congr {b b' : Netbuf} (h : b.bytes = b'.bytes) (written : Bool) (s : Server) :
    s.turn ⟨false, some b, written⟩ = s.turn ⟨false, some b', written⟩ := by
  simp only [turn, serve, tcpRecvData_eq, h]

theorem foldl_received_congr : ∀ (bufs bufs' : List Netbuf) (s : Server),
    bufs.map Netbuf.bytes = bufs'.map Netbuf.bytes →
      (received bufs).foldl turn s = (received bufs').foldl turn s
  | [], [], _, _ => rfl
  | b :: bufs, b' :: bufs', s, h => by
      simp only [List.map_cons, List.cons.injEq] at h
      simp only [received, List.map_cons, List.foldl_cons]
      rw [turn_congr h.1]
      exact foldl_received_congr bufs bufs' _ h.2
  | [], _ :: _, _, h | _ :: _, [], _, h => by simp at h

/-! ### After the connection -/

/-- Without a connection buffers change nothing. -/
theorem turn_idle {s : Server} (h : s.connected = false) (b : Netbuf) :
    (s.turn ⟨false, some b, true⟩).station = s.station ∧
      (s.turn ⟨false, some b, true⟩).trace = s.trace ∧
      (s.turn ⟨false, some b, true⟩).connected = false := by
  cases hpc : s.pc with
  | serving c => simp [connected, hpc] at h
  | stopped => simp [turn, hpc, h]
  | accepting =>
    simp only [turn, hpc]
    split_ifs <;> simp_all [connected]

theorem foldl_received_idle (bufs : List Netbuf) (s : Server) (h : s.connected = false) :
    ((received bufs).foldl turn s).station = s.station ∧
      ((received bufs).foldl turn s).replies = s.replies ∧
      ((received bufs).foldl turn s).connected = false := by
  induction bufs generalizing s with
  | nil => exact ⟨rfl, rfl, h⟩
  | cons b bufs ih =>
    obtain ⟨hst, htr, hc⟩ := turn_idle h b
    obtain ⟨hst', htr', hc'⟩ := ih _ hc
    refine ⟨hst'.trans hst, htr'.trans ?_, hc'⟩
    rw [replies, replies, htr]

/-- A buffer that is not one request ends the connection. -/
theorem turn_not_whole {s : Server} {c : ℕ} (hpc : s.pc = .serving c) {q : Netbuf}
    (hq : ¬Whole q.bytes) :
    s.turn ⟨false, some q, true⟩ =
      { s.emit [.setTimeout c, .recv c, .write c (errorReply q), .disconnect c] with pc := .accepting } := by
  simp only [turn, hpc, serve, tcpRecvData_eq]
  rw [if_neg (fun h => hq h.1)]
  simp [emit, errorReply]

/-- What a buffer that is not one request does, and all that come after it. -/
theorem foldl_received_not_whole {q : Netbuf} (hq : ¬Whole q.bytes) (rest : List Netbuf) (s : Server) :
    ((received (q :: rest)).foldl turn s).station = s.station ∧
      ((received (q :: rest)).foldl turn s).replies =
        s.replies ++ (if s.connected then [errorReply q] else []) ∧
      ((received (q :: rest)).foldl turn s).connected = false := by
  cases hc : s.connected with
  | false =>
    simpa using foldl_received_idle (q :: rest) s hc
  | true =>
    obtain ⟨c, hpc⟩ : ∃ c, s.pc = .serving c := by
      cases hpc : s.pc <;> simp [connected, hpc] at hc ⊢
    have hturn := turn_not_whole hpc hq
    obtain ⟨hst, hre, hcon⟩ := foldl_received_idle rest (s.turn ⟨false, some q, true⟩)
      (by rw [hturn]; rfl)
    refine ⟨hst.trans (by rw [hturn]; rfl), hre.trans ?_, hcon⟩
    rw [hturn, replies, replies]
    simp only [emit, List.filterMap_append, if_true]
    rfl

/-! ### Streams -/

theorem intactBufs_map (bufs : List Netbuf) :
    (intactBufs bufs).map Netbuf.bytes =
      (bufs.map Netbuf.bytes).takeWhile (fun b => decide (Whole b)) := by
  rw [intactBufs, List.takeWhile_map]
  rfl

theorem intactBufs_cases (bufs : List Netbuf) : intactBufs bufs = bufs ∨
    ∃ q rest, bufs = intactBufs bufs ++ q :: rest ∧ ¬Whole q.bytes := by
  induction bufs with
  | nil => exact Or.inl rfl
  | cons b bufs ih =>
    by_cases hb : Whole b.bytes
    · have hcons : intactBufs (b :: bufs) = b :: intactBufs bufs :=
        List.takeWhile_cons_of_pos (by simpa using hb)
      rw [hcons]
      rcases ih with h | ⟨q, rest, h, hq⟩
      · exact Or.inl (by rw [h])
      · exact Or.inr ⟨q, rest, by rw [List.cons_append, ← h], hq⟩
    · have hcons : intactBufs (b :: bufs) = [] := List.takeWhile_cons_of_neg (by simpa using hb)
      exact Or.inr ⟨b, bufs, by rw [hcons]; rfl, hb⟩

/-- The answer to the first buffer that is not one request, the ones before it having led to
    `intact`. -/
def cutReply (intact : Server) : Option Netbuf → List (List UInt8)
  | some q => if intact.connected then [errorReply q] else []
  | none => []

/-- A stream of requests in any buffers, against the same requests in one buffer each: the buffers
    up to the first one that is not a request are the first requests, and lead to the same. -/
theorem replies_of_segments (s : Server) (one bufs : List Netbuf)
    (hone : ∀ b ∈ one, Whole b.bytes) (hbufs : ∀ b ∈ bufs, b.bytes ≠ [])
    (hcut : (bufs.map Netbuf.bytes).flatten = (one.map Netbuf.bytes).flatten) :
    let n := (intactBufs bufs).length
    let intact := (received (one.take n)).foldl turn s
    let cut := (received bufs).foldl turn s
    n ≤ one.length ∧ (bufs.take n).map Netbuf.bytes = (one.take n).map Netbuf.bytes ∧
      cut.station = intact.station ∧
      cut.replies = intact.replies ++ cutReply intact bufs[n]? ∧
      (n < bufs.length → cut.connected = false) ∧
      ((∀ b ∈ bufs, Whole b.bytes) → cut = (received one).foldl turn s) := by
  intro n intact cut
  have hbytes : ∀ m ∈ one.map Netbuf.bytes, Whole m := by simpa using hone
  have hpre := whole_prefixFree.takeWhile_prefix (bufs.map Netbuf.bytes) (one.map Netbuf.bytes) hbytes
    (by simpa using hbufs) hcut
  rw [← intactBufs_map] at hpre
  have hlen : (intactBufs bufs).length ≤ one.length := by simpa using hpre.length_le
  -- the buffers up to the first bad one are the requests, byte by byte
  have hsent : (intactBufs bufs).map Netbuf.bytes =
      (one.take (intactBufs bufs).length).map Netbuf.bytes := by
    rw [List.map_take, List.prefix_iff_eq_take.mp hpre, List.length_map]
  have htake : (bufs.take n).map Netbuf.bytes = (one.take n).map Netbuf.bytes := by
    have hfront : intactBufs bufs = bufs.take n := List.prefix_iff_eq_take.mp (List.takeWhile_prefix _)
    rw [← hfront]
    exact hsent
  have hintact : intact = (received (intactBufs bufs)).foldl turn s :=
    (foldl_received_congr _ _ s hsent).symm
  rcases intactBufs_cases bufs with hall | ⟨q, rest, hbufs', hq⟩
  · have hwhole : ∀ b ∈ bufs, Whole b.bytes := by
      simpa [intactBufs, List.takeWhile_eq_self_iff] using hall
    have hmaps := whole_prefixFree.eq_of_whole (fun m hm => ⟨hbytes m hm, (hbytes m hm).ne_nil⟩)
      (by simpa using fun b hb => ⟨hwhole b hb, hbufs b hb⟩) hcut
    have hn : bufs[(intactBufs bufs).length]? = none := by rw [hall]; simp
    have hcut' : intact = cut := by rw [hintact, hall]
    rw [← hcut']
    refine ⟨hlen, htake, rfl, by simp [n, hn, cutReply], fun h => absurd h (by simp [n, hall]),
      fun _ => ?_⟩
    rw [hcut']
    exact foldl_received_congr bufs one s hmaps
  · have hn : bufs[(intactBufs bufs).length]? = some q := by
      have hat : (intactBufs bufs ++ q :: rest)[(intactBufs bufs).length]? = some q := by simp
      rwa [← hbufs'] at hat
    have hrun : cut = (received (q :: rest)).foldl turn intact := by
      have happ : received bufs = received (intactBufs bufs) ++ received (q :: rest) := by
        rw [received, received, received, ← List.map_append, ← hbufs']
      rw [hintact, ← List.foldl_append, ← happ]
    obtain ⟨hst, hre, hcon⟩ := foldl_received_not_whole hq rest intact
    rw [← hrun] at hst hre hcon
    refine ⟨hlen, htake, hst, ?_, fun _ => hcon, fun h => absurd (h q ?_) hq⟩
    · rw [hre, hn, cutReply]
    · rw [hbufs']
      simp

/-- A search in one buffer, and the same search in two. -/
def cutSearch : List Netbuf :=
  [Netbuf.single [0x94, 3] (by decide), Netbuf.single [0, 0, 1] (by decide)]

theorem replies_of_cutSearch :
    let s := { start Station.blank with pc := .serving 0 }
    let n := (intactBufs cutSearch).length
    let intact := (received ([searchRequest].take n)).foldl turn s
    let cut := (received cutSearch).foldl turn s
    n ≤ 1 ∧ (cutSearch.take n).map Netbuf.bytes = ([searchRequest].take n).map Netbuf.bytes ∧
      cut.station = intact.station ∧
      cut.replies = intact.replies ++ cutReply intact cutSearch[n]? ∧
      (n < 2 → cut.connected = false) ∧
      ((∀ b ∈ cutSearch, Whole b.bytes) → cut = (received [searchRequest]).foldl turn s) :=
  replies_of_segments { start Station.blank with pc := .serving 0 } [searchRequest] cutSearch
    (by decide) (by decide) (by decide)

theorem not_replies_of_segments : ¬ ∀ (s : Server) (one bufs : List Netbuf),
    (∀ b ∈ one, Whole b.bytes) → (∀ b ∈ bufs, b.bytes ≠ []) →
    (bufs.map Netbuf.bytes).flatten = (one.map Netbuf.bytes).flatten →
      ((received bufs).foldl turn s).replies = ((received one).foldl turn s).replies ∧
        ((received bufs).foldl turn s).station = ((received one).foldl turn s).station := by
  intro h
  obtain ⟨hre, -⟩ := h { start Station.blank with pc := .serving 0 } [searchRequest] cutSearch
    (by decide) (by decide) (by decide)
  revert hre
  decide +kernel

end VectorFence.Server
