import VectorFence.Lib.Run
import VectorFence.Lib.Segments
import VectorFence.Tcp.Message

/-! The loops of `tcp_server_thread`. The outer one waits for a connection, the inner one serves it; one
    turn of either is a step, `Io` telling what the calls of the network stack return in it.

        accepting ──netconn_accept──▶ serving c ──error──▶ disconnect_server ──▶ accepting
                                         ▲   └──reply not written──▶ disconnect_server ─┐
                                         └──────────────────────────────────────────────┘

    Every use of a connection is recorded in `trace`. The second way of closing a connection does
    not leave the inner loop, so the connection is used again. -/

namespace VectorFence

/-- A use of the connection with number `c`. -/
inductive Event where
  | accept (c : ℕ)
  | setTimeout (c : ℕ)
  | getAddr (c : ℕ)
  | recv (c : ℕ)
  | write (c : ℕ) (bytes : List UInt8)
  | disconnect (c : ℕ)
  deriving DecidableEq, Repr

namespace Event

def conn : Event → ℕ
  | accept c | setTimeout c | getAddr c | recv c | write c _ | disconnect c => c

/-- The event is `disconnect_server`. -/
def closes : Event → Bool
  | disconnect _ => true
  | _ => false

/-- The bytes of a `netconn_write`. -/
def written : Event → Option (List UInt8)
  | write _ bytes => some bytes
  | _ => none

end Event

/-- Where the thread is: `stopped` is a return or a reset of the system. -/
inductive Pc where
  | accepting
  | serving (c : ℕ)
  | stopped
  deriving DecidableEq, Repr

/-- What the calls return in one turn: `netconn_accept`, `netconn_recv` and `netconn_write`. -/
structure Io where
  accepts : Bool
  received : Option Netbuf
  written : Bool

/-- The thread, what it has changed and done so far. -/
structure Server where
  pc : Pc
  station : Station
  connections : ℕ
  trace : List Event

namespace Server

open Tcp

/-- The thread listens. -/
def start (st : Station) : Server := ⟨.accepting, st, 0, []⟩

def emit (evs : List Event) (s : Server) : Server := { s with trace := s.trace ++ evs }

/-- One turn of the inner loop after a buffer was received. -/
def serve (c : ℕ) (recvbuf : Netbuf) (written : Bool) (s : Server) : Server :=
  match tcpRecvData recvbuf with
  | .rejected err => { s.emit [.write c err, .disconnect c] with pc := .accepting }
  | .accepted buf =>
    match parseReplyData buf s.station with
    | .refused => s.emit [.disconnect c]
    | .reset => { s with pc := .stopped }
    | .reply st ans =>
      { s.emit (if written then [.write c ans] else [.write c ans, .disconnect c]) with station := st }

/-- One turn of `tcp_server_thread`. -/
def turn (s : Server) (io : Io) : Server :=
  match s.pc with
  | .stopped => s
  | .accepting =>
    if s.station.ipChangeFlag then { s with pc := .stopped }
    else if io.accepts then
      { s.emit [.accept s.connections, .setTimeout s.connections, .getAddr s.connections] with
        pc := .serving s.connections
        connections := s.connections + 1 }
    else s
  | .serving c =>
    let s := s.emit [.setTimeout c, .recv c]
    match io.received with
    | none => { s.emit [.disconnect c] with pc := .accepting }
    | some recvbuf => serve c recvbuf io.written s

/-! ### Using a connection -/

/-- After `disconnect_server` a connection is not used. -/
def Safe (trace : List Event) : Prop :=
  trace.Pairwise fun e e' => e.closes = true → e'.conn ≠ e.conn

/-- The connection that is being served has not been closed, and none has been used after its end. -/
def Usable (s : Server) : Prop :=
  Safe s.trace ∧ ∀ c, s.pc = .serving c → ∀ e ∈ s.trace, e.closes = true → e.conn ≠ c

/-- Connections are numbered in the order in which they come. -/
structure Numbered (s : Server) : Prop where
  used : ∀ e ∈ s.trace, e.conn < s.connections
  served : ∀ c, s.pc = .serving c → c < s.connections

/-- The request that resets the system instead of being answered. -/
def PowerOn (m : List UInt8) (st : Station) : Prop :=
  byteAt m 4 = msgTypeSetBufang ∧ byteAt m 5 = defenceStatusPower ∧
    (byteAt m 2 = st.dev.para.fieldNum 0 ∨ byteAt m 2 = st.dev.para.fieldNum 1)

/-- When a request for the device arrives in one buffer, its reply gets written. -/
def RepliesWritten (s : Server) (io : Io) : Prop :=
  ∀ c recvbuf, s.pc = .serving c → io.received = some recvbuf → Whole recvbuf.bytes →
    ForDevice recvbuf.bytes → ¬PowerOn recvbuf.bytes s.station → io.written = true

/-- What one turn can do. -/
inductive Turn (s : Server) (io : Io) (s' : Server) : Prop where
  | same : RepliesWritten s io → s' = s → Turn s io s'
  | stop : RepliesWritten s io → s' = { s with pc := .stopped } → Turn s io s'
  | accept : RepliesWritten s io →
      s' = { s.emit [.accept s.connections, .setTimeout s.connections, .getAddr s.connections] with
        pc := .serving s.connections
        connections := s.connections + 1 } → Turn s io s'
  | close (c : ℕ) (evs : List Event) : s.pc = .serving c → RepliesWritten s io →
      (∀ e ∈ evs, e.conn = c ∧ e.closes = false) →
      s' = { s.emit (evs ++ [.disconnect c]) with pc := .accepting } → Turn s io s'
  | reset (c : ℕ) : s.pc = .serving c → RepliesWritten s io →
      s' = { s.emit [.setTimeout c, .recv c] with pc := .stopped } → Turn s io s'
  | reply (c : ℕ) (st : Station) (ans : List UInt8) : s.pc = .serving c → RepliesWritten s io →
      s' = { s.emit [.setTimeout c, .recv c, .write c ans] with station := st } → Turn s io s'
  | lose (c : ℕ) (st : Station) (ans : List UInt8) : s.pc = .serving c → ¬RepliesWritten s io →
      s' = { s.emit [.setTimeout c, .recv c, .write c ans, .disconnect c] with station := st } →
      Turn s io s'

@[simp] theorem emit_trace (evs : List Event) (s : Server) : (s.emit evs).trace = s.trace ++ evs := rfl

@[simp] theorem emit_emit (evs evs' : List Event) (s : Server) :
    (s.emit evs).emit evs' = s.emit (evs ++ evs') := by
  simp [emit]

/-- A request that was received has the head, so it is not refused. -/
theorem parse_whole {m : List UInt8} (st : Station) (hm : Whole m) :
    (PowerOn m st ∧ parseReplyData m st = .reset) ∨
      ¬PowerOn m st ∧ ∃ st' ans, parseReplyData m st = .reply st' ans := by
  simp only [parseReplyData, setBufang, answer, PowerOn]
  rw [if_neg (not_not.mpr hm.2.1)]
  by_cases hzone : byteAt m 2 = st.dev.para.fieldNum 0 ∨ byteAt m 2 = st.dev.para.fieldNum 1
  · rw [if_neg (by tauto)]
    by_cases hb : byteAt m 4 = msgTypeSetBufang
    · by_cases hp : byteAt m 5 = defenceStatusPower
      · have h3 : ¬(byteAt m 5 = defenceStatusBufang ∨ byteAt m 5 = defenceStatusChefang) := by
          rw [hp]; decide
        exact Or.inl ⟨⟨hb, hp, hzone⟩, by rw [if_pos hb, if_neg h3, if_pos hp]⟩
      · refine Or.inr ⟨by tauto, ?_⟩
        split_ifs <;> exact ⟨_, _, rfl⟩
    · refine Or.inr ⟨by tauto, ?_⟩
      split_ifs <;> exact ⟨_, _, rfl⟩
  · refine Or.inr ⟨by tauto, ?_⟩
    by_cases hs : byteAt m 4 = msgTypeSearchDevice
    · have hb : ¬byteAt m 4 = msgTypeSetBufang := by rw [hs]; decide
      rw [if_neg (by tauto), if_neg hb]
      split_ifs <;> exact ⟨_, _, rfl⟩
    · rw [if_pos (by tauto)]
      exact ⟨_, _, rfl⟩

/-- Only the inner loop writes replies. -/
theorem repliesWritten_of_not_serving {s : Server} (h : ∀ c, s.pc ≠ .serving c) (io : Io) :
    RepliesWritten s io := by
  intro c _ hc
  exact absurd hc (h c)

theorem turn_cases (s : Server) (io : Io) : Turn s io (s.turn io) := by
  cases hpc : s.pc with
  | stopped =>
    exact .same (repliesWritten_of_not_serving (by simp [hpc]) io) (by rw [turn, hpc])
  | accepting =>
    have hkept := repliesWritten_of_not_serving (s := s) (by simp [hpc]) io
    simp only [turn, hpc]
    split_ifs
    · exact .stop hkept rfl
    · exact .accept hkept rfl
    · exact .same hkept rfl
  | serving c =>
    simp only [turn, hpc]
    cases hio : io.received with
    | none =>
      refine .close c [.setTimeout c, .recv c] hpc ?_ (by simp [Event.conn, Event.closes]) (by simp)
      intro _ _ _ h
      simp [hio] at h
    | some recvbuf =>
      -- the condition, for the buffer that was received
      have hkept : RepliesWritten s io ↔ (Whole recvbuf.bytes → ForDevice recvbuf.bytes →
          ¬PowerOn recvbuf.bytes s.station → io.written = true) := by
        constructor
        · intro h
          exact h c recvbuf hpc hio
        · rintro h _ recvbuf' _ hio'
          rw [hio, Option.some.injEq] at hio'
          rwa [← hio']
      simp only [serve, tcpRecvData_eq]
      by_cases hm : Whole recvbuf.bytes ∧ ForDevice recvbuf.bytes
      · rw [if_pos hm]
        rcases parse_whole s.station hm.1 with ⟨hp, hreset⟩ | ⟨hp, st, ans, hreply⟩
        · exact .reset c hpc (hkept.mpr fun _ _ h => absurd hp h) (by simp [emit, hreset])
        · cases hw : io.written with
          | true => exact .reply c st ans hpc (hkept.mpr fun _ _ _ => hw) (by simp [emit, hreply])
          | false =>
            refine .lose c st ans hpc ?_ (by simp [emit, hreply])
            rw [hkept, hw]
            intro h
            exact absurd (h hm.1 hm.2 hp) (by decide)
      · rw [if_neg hm]
        let err := tcpSendErr (byteAt recvbuf.bytes 2) (byteAt recvbuf.bytes 4)
        exact .close c [.setTimeout c, .recv c, .write c err] hpc
          (hkept.mpr fun h h' => absurd ⟨h, h'⟩ hm) (by simp [Event.conn, Event.closes]) (by simp [err])

/-! ### Runs -/

/-- Events before the end of a connection do not harm each other. -/
theorem safe_of_open {t : List Event} (h : ∀ e ∈ t, e.closes = false) : Safe t := by
  induction t with
  | nil => exact List.Pairwise.nil
  | cons e t ih =>
    rw [List.forall_mem_cons] at h
    exact List.pairwise_cons.mpr ⟨fun e' _ hc => by simp [h.1] at hc, ih h.2⟩

/-- A connection that has not been closed can be used once more, and then be closed. -/
theorem safe_append {t evs : List Event} {c : ℕ} (ht : Safe t)
    (hopen : ∀ e ∈ t, e.closes = true → e.conn ≠ c) (hevs : ∀ e ∈ evs, e.conn = c) (hs : Safe evs) :
    Safe (t ++ evs) := by
  refine List.pairwise_append.mpr ⟨ht, hs, ?_⟩
  intro e he e' he' hc
  rw [hevs e' he']
  exact (hopen e he hc).symm

theorem safe_disconnect (evs : List Event) {c : ℕ} (h : ∀ e ∈ evs, e.conn = c ∧ e.closes = false) :
    Safe (evs ++ [Event.disconnect c]) := by
  refine List.pairwise_append.mpr ⟨safe_of_open fun e he => (h e he).2, List.pairwise_singleton .., ?_⟩
  intro e he _ _ hc
  simp [(h e he).2] at hc

theorem numbered_emit {s : Server} {c : ℕ} {evs : List Event} (h : Numbered s) (hpc : s.pc = .serving c)
    (hevs : ∀ e ∈ evs, e.conn = c) : ∀ e ∈ (s.emit evs).trace, e.conn < s.connections := by
  intro e he
  rcases List.mem_append.mp he with he | he
  · exact h.used e he
  · rw [hevs e he]
    exact h.served c hpc

theorem numbered_turn {s : Server} (io : Io) (h : Numbered s) : Numbered (s.turn io) := by
  cases s.turn_cases io with
  | same _ hs => rwa [hs]
  | stop _ hs => rw [hs]; exact ⟨h.used, fun c hc => by simp at hc⟩
  | accept _ hs =>
    rw [hs]
    constructor
    · intro e he
      rcases List.mem_append.mp he with he | he
      · exact Nat.lt_succ_of_lt (h.used e he)
      · simp only [List.mem_cons, List.not_mem_nil, or_false] at he
        rcases he with rfl | rfl | rfl <;> exact Nat.lt_succ_self _
    · rintro c hc
      rw [← Pc.serving.inj hc]
      exact Nat.lt_succ_self _
  | close c evs hpc _ hevs hs =>
    rw [hs]
    refine ⟨numbered_emit h hpc ?_, fun c hc => by simp at hc⟩
    intro e he
    rcases List.mem_append.mp he with he | he
    · exact (hevs e he).1
    · rw [List.mem_singleton.mp he]
      rfl
  | reset c hpc _ hs =>
    rw [hs]
    exact ⟨numbered_emit h hpc (by simp [Event.conn]), fun c hc => by simp at hc⟩
  | reply c st ans hpc _ hs | lose c st ans hpc _ hs =>
    rw [hs]
    exact ⟨numbered_emit h hpc (by simp [Event.conn]), h.served⟩

theorem usable_emit {s : Server} {c : ℕ} {evs : List Event} (hu : Usable s) (hpc : s.pc = .serving c)
    (hevs : ∀ e ∈ evs, e.conn = c ∧ e.closes = false) : Usable (s.emit evs) := by
  refine ⟨safe_append hu.1 (hu.2 c hpc) (fun e he => (hevs e he).1)
    (safe_of_open fun e he => (hevs e he).2), ?_⟩
  intro c' hc' e he hcl
  rcases List.mem_append.mp he with he | he
  · exact hu.2 c' hc' e he hcl
  · simp [(hevs e he).2] at hcl

/-- A turn that loses no reply keeps the connection usable. -/
theorem usable_turn {s : Server} {io : Io} (hn : Numbered s) (hu : Usable s)
    (hio : RepliesWritten s io) :
    Usable (s.turn io) := by
  cases s.turn_cases io with
  | same _ hs => rwa [hs]
  | stop _ hs => rw [hs]; exact ⟨hu.1, fun c hc => by simp at hc⟩
  | accept _ hs =>
    -- the new connection has a number that was not used before
    have hnew : ∀ e ∈ s.trace, e.closes = true → e.conn ≠ s.connections :=
      fun e he _ => (hn.used e he).ne
    rw [hs]
    refine ⟨safe_append hu.1 hnew (by simp [Event.conn]) (safe_of_open (by simp [Event.closes])), ?_⟩
    rintro c hc e he hcl
    rw [← Pc.serving.inj hc]
    rcases List.mem_append.mp he with he | he
    · exact hnew e he hcl
    · simp only [List.mem_cons, List.not_mem_nil, or_false] at he
      rcases he with rfl | rfl | rfl <;> simp [Event.closes] at hcl
  | close c evs hpc _ hevs hs =>
    rw [hs]
    refine ⟨safe_append hu.1 (hu.2 c hpc) ?_ (safe_disconnect _ hevs), fun c hc => by simp at hc⟩
    intro e he
    rcases List.mem_append.mp he with he | he
    · exact (hevs e he).1
    · rw [List.mem_singleton.mp he]
      rfl
  | reset c hpc _ hs =>
    rw [hs]
    exact ⟨(usable_emit hu hpc (by simp [Event.conn, Event.closes])).1, fun c hc => by simp at hc⟩
  | reply c st ans hpc _ hs =>
    rw [hs]
    exact usable_emit hu hpc (by simp [Event.conn, Event.closes])
  | lose _ _ _ _ hlost _ => exact absurd hio hlost

/-- Also a turn that loses a reply uses the connection before it closes it. -/
theorem safe_turn {s : Server} (io : Io) (hn : Numbered s) (hu : Usable s) :
    Safe (s.turn io).trace := by
  by_cases hio : RepliesWritten s io
  · exact (usable_turn hn hu hio).1
  · cases s.turn_cases io with
    | lose c st ans hpc _ hs =>
      rw [hs]
      refine safe_append hu.1 (hu.2 c hpc) (by simp [Event.conn]) ?_
      exact safe_disconnect [.setTimeout c, .recv c, .write c ans] (by simp [Event.conn, Event.closes])
    | same h _ | stop h _ | accept h _ | close _ _ _ h _ _ | reset _ _ h _ | reply _ _ _ _ h _ =>
      exact absurd h hio

/-- What was done stays in the trace. -/
theorem trace_extends (s : Server) (io : Io) : s.trace <+: (s.turn io).trace := by
  cases s.turn_cases io with
  | same _ hs | stop _ hs | accept _ hs | close _ _ _ _ _ hs | reset _ _ _ hs | reply _ _ _ _ _ hs
  | lose _ _ _ _ _ hs => simp [hs, emit]

theorem foldl_trace_extends (ios : List Io) (s : Server) : s.trace <+: (ios.foldl turn s).trace := by
  induction ios generalizing s with
  | nil => exact List.prefix_refl _
  | cons io ios ih => exact (trace_extends s io).trans (ih (s.turn io))

theorem serve_trace_extends (c : ℕ) (recvbuf : Netbuf) (written : Bool) (s : Server) :
    s.trace <+: (serve c recvbuf written s).trace := by
  rw [serve]
  cases tcpRecvData recvbuf with
  | rejected err => simp
  | accepted buf =>
    simp only
    cases parseReplyData buf s.station <;> simp

/-- A turn that serves a connection begins with its `recv_timeout`. -/
theorem turn_serving_trace {s : Server} {c : ℕ} (hpc : s.pc = .serving c) (io : Io) :
    s.trace ++ [Event.setTimeout c, Event.recv c] <+: (s.turn io).trace := by
  simp only [turn, hpc]
  cases hio : io.received with
  | none => simp
  | some recvbuf => exact serve_trace_extends c recvbuf io.written (s.emit [.setTimeout c, .recv c])

/-- After a turn that loses a reply the next turn uses the closed connection. -/
theorem not_safe_of_lost {s : Server} {io : Io} (hio : ¬RepliesWritten s io) (io' : Io) :
    ¬Safe ((s.turn io).turn io').trace := by
  cases s.turn_cases io with
  | lose c st ans hpc _ hs =>
    have hpre := turn_serving_trace (s := s.turn io) (c := c) (by rw [hs]; exact hpc) io'
    intro hsafe
    have hbad := List.Pairwise.sublist hpre.sublist hsafe
    rw [List.pairwise_append] at hbad
    exact hbad.2.2 (.disconnect c) (by simp [hs, emit]) (.setTimeout c) (by simp) rfl rfl
  | same h _ | stop h _ | accept h _ | close _ _ _ h _ _ | reset _ _ h _ | reply _ _ _ _ h _ =>
    exact absurd h hio

theorem start_usable (st : Station) : Numbered (start st) ∧ Usable (start st) :=
  ⟨⟨by simp [start], by simp [start]⟩, by simp [start, Usable, Safe]⟩

theorem repliesWritten_of_safe (io : Io) : ∀ (ios : List Io) (s : Server), Numbered s → Usable s →
    Safe ((ios ++ [io]).foldl turn s).trace → ∀ p ∈ Run.steps turn s ios, RepliesWritten p.1 p.2
  | [], _, _, _, _ => by simp [Run.steps]
  | a :: as, s, hn, hu, hsafe => by
      have ha : RepliesWritten s a := by
        by_contra hlost
        cases as with
        | nil => exact not_safe_of_lost hlost io hsafe
        | cons b bs =>
          refine not_safe_of_lost hlost b (hsafe.sublist ?_)
          exact (foldl_trace_extends (bs ++ [io]) ((s.turn a).turn b)).sublist
      rw [Run.steps, List.forall_mem_cons]
      exact ⟨ha, repliesWritten_of_safe io as (s.turn a) (numbered_turn a hn)
        (usable_turn hn hu ha) hsafe⟩

/-- The connections of a run are not used after their end exactly when every reply before the last
    turn is written: the inner loop is left after an error in receiving, not after one in sending. -/
theorem run_safe_iff (st : Station) (ios : List Io) (io : Io) :
    Safe ((ios ++ [io]).foldl turn (start st)).trace ↔
      ∀ p ∈ Run.steps turn (start st) ios, RepliesWritten p.1 p.2 := by
  obtain ⟨hn, hu⟩ := start_usable st
  constructor
  · exact repliesWritten_of_safe io ios (start st) hn hu
  · intro hkept
    have hinv := Run.foldl_inv_of_steps (fun s => Numbered s ∧ Usable s)
      (fun s io h hio => ⟨numbered_turn io h.1, usable_turn h.1 h.2 hio⟩) ios (start st) ⟨hn, hu⟩ hkept
    rw [List.foldl_append]
    exact safe_turn io hinv.1 hinv.2

/-- The request that searches for devices. -/
def searchRequest : Netbuf := Netbuf.single [0x94, 3, 0, 0, 1] (by decide)

/-- A search whose reply cannot be written, after which nothing is received any more. -/
def lostReply : List Io := [⟨true, none, true⟩, ⟨true, some searchRequest, false⟩, ⟨true, none, true⟩]

theorem not_safe : ¬ ∀ (st : Station) (ios : List Io), Safe (ios.foldl turn (start st)).trace := by
  intro h
  have htrace : (lostReply.foldl turn (start Station.blank)).trace =
      [.accept 0, .setTimeout 0, .getAddr 0, .setTimeout 0, .recv 0,
        .write 0 [0x94, 6, 0, 1, 1, 0, 0, 0], .disconnect 0, .setTimeout 0, .recv 0,
        .disconnect 0] := by
    decide +kernel
  have hsafe := h Station.blank lostReply
  rw [htrace, Safe] at hsafe
  revert hsafe
  decide

end Server

end VectorFence
