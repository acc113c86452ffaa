import VectorFence.Iic.Mutex

/-! What `IICRead` and `IICWrite` do on the bus, with the result they return. A read may fail at
    three points, where it waits for an acknowledge:

        pend start  send addr   ack?   send reg   ack?   start  send addr|1   ack?   recv … recv   stop post
                             (0) └─no─▶ -1     (1) └─no─▶ -1               (2) └─no─▶ -1

    A buffer of `n` bytes is filled only when all three are there. -/

namespace VectorFence

namespace Iic

variable {dev : IicSlaves} {b : IicBus} {slaveAddr readAddr : UInt8}

/-! ### Steps on the bus -/

theorem run_emit (e : IicEvent) (b : IicBus) :
    (emit e).run b = some ((), ⟨b.held, b.trace ++ [e]⟩) := rfl

theorem run_post (b : IicBus) : osMutexPost.run b = some ((), ⟨false, b.trace ++ [IicEvent.post]⟩) :=
  rfl

theorem run_acked (h : dev.nack b.trace = false) :
    (iicWaitAck dev).run b = some (false, ⟨b.held, b.trace ++ [IicEvent.wait false]⟩) := by
  rw [run_waitAck, h, if_neg (by decide), List.append_nil]

theorem run_nacked (h : dev.nack b.trace = true) :
    (iicWaitAck dev).run b = some
    (true, ⟨b.held, b.trace ++ [IicEvent.wait true] ++ [IicEvent.stop]⟩) := by
  rw [run_waitAck, h, if_pos rfl]

theorem run_readByte (ack : Bool) (b : IicBus) :
    (iicReadByte dev ack).run b = some
    (dev.byte b.trace, ⟨b.held, b.trace ++ [IicEvent.recv ack]⟩) := rfl

/-- A byte sent, and what follows if it is acknowledged; else the transfer ends with `r`. -/
def sendChecked {α : Type} (dev : IicSlaves) (txd : UInt8) (r : α) (k : Iic α) : Iic α := do
  iicSendByte txd
  if ← iicWaitAck dev then
    iicStop
    osMutexPost
    return r
  else k

/-- A byte that is acknowledged … -/
theorem run_sendChecked_acked {α : Type} (r : α) (k : Iic α) {txd : UInt8}
    (h : dev.nack (b.trace ++ [IicEvent.send txd]) = false) :
    (sendChecked dev txd r k).run b =
    k.run ⟨b.held, b.trace ++ [IicEvent.send txd] ++ [IicEvent.wait false]⟩ := by
  rw [sendChecked, iicSendByte, run_bind_of (run_emit _ _), run_bind_of (run_acked h),
    if_neg (by decide)]

/-- … and one that is not. -/
theorem run_sendChecked_nacked {α : Type} (r : α) (k : Iic α) {txd : UInt8}
    (h : dev.nack (b.trace ++ [IicEvent.send txd]) = true) :
    (sendChecked dev txd r k).run b =
      some (r, ⟨false, b.trace ++ [IicEvent.send txd] ++ [IicEvent.wait true] ++ [IicEvent.stop] ++
        [IicEvent.stop] ++ [IicEvent.post]⟩) := by
  rw [sendChecked, iicSendByte, run_bind_of (run_emit _ _), run_bind_of (run_nacked h),
    if_pos rfl, iicStop,
    run_bind_of (run_emit _ _), run_bind_of (run_post _)]
  rfl

theorem iicRead_eq (dev : IicSlaves) (slaveAddr readAddr : UInt8) (rBufSize : UInt16) :
    iicRead dev slaveAddr readAddr rBufSize = (do
      osMutexPend
      iicStart
      sendChecked dev slaveAddr (-1, []) (sendChecked dev readAddr (-1, []) (do
        iicStart
        sendChecked dev (slaveAddr ||| 0x01) (-1, []) (do
          let rBuf ← recvBytes dev (rBufSize.toUInt8.toNat - 1)
          iicStop
          osMutexPost
          return (rBufSize.toUInt8, rBuf))))) := rfl

theorem iicWrite_eq (dev : IicSlaves) (slaveAddr writeAddr : UInt8) (wBuf : List UInt8) :
    iicWrite dev slaveAddr writeAddr wBuf = (do
      osMutexPend
      iicStart
      sendChecked dev slaveAddr (-1) (sendChecked dev writeAddr (-1) (do
        if ← sendBytes dev (wBuf.take (UInt8.ofNat wBuf.length).toNat) then
          iicStop
          osMutexPost
          return -1
        else
          iicStop
          osMutexPost
          return UInt8.ofNat wBuf.length))) := rfl

/-! ### Reading -/

/-- What has happened when a read waits for an acknowledge. -/
def readPoint (slaveAddr readAddr : UInt8) (t : List IicEvent) : Fin 3 → List IicEvent
  | 0 => t ++ [.pend, .start, .send slaveAddr]
  | 1 => t ++ [.pend, .start, .send slaveAddr, .wait false, .send readAddr]
  | 2 => t ++ [.pend, .start, .send slaveAddr, .wait false, .send readAddr, .wait false, .start,
      .send (slaveAddr ||| 0x01)]

/-- No acknowledge is missing in a read that begins after `t`. -/
def Acked (dev : IicSlaves) (slaveAddr readAddr : UInt8) (t : List IicEvent) : Prop :=
  ∀ i, dev.nack (readPoint slaveAddr readAddr t i) = false

instance (t : List IicEvent) : Decidable (Acked dev slaveAddr readAddr t) :=
  inferInstanceAs (Decidable (∀ i, dev.nack (readPoint slaveAddr readAddr t i) = false))

/-- What has happened when byte `k` of a read comes in. -/
def readTrace (slaveAddr readAddr : UInt8) (t : List IicEvent) (k : ℕ) : List IicEvent :=
  readPoint slaveAddr readAddr t 2 ++ [.wait false] ++ List.replicate k (.recv true)

theorem run_recvBytes (dev : IicSlaves) (n : ℕ) (b : IicBus) : ∃ b', (recvBytes dev n).run b =
    some ((List.range (n + 1)).map fun k => dev.byte (b.trace ++ List.replicate k (.recv true)),
    b') := by
  induction n generalizing b with
  | zero => exact ⟨_, by rw [recvBytes, run_bind_of (run_readByte false b)]; simp; rfl⟩
  | succ n ih =>
    obtain ⟨b', hrun⟩ := ih ⟨b.held, b.trace ++ [IicEvent.recv true]⟩
    refine ⟨b', ?_⟩
    have hrest : (List.range (n + 1 + 1)).map (fun k =>
      dev.byte (b.trace ++ List.replicate k (.recv true))) =
        dev.byte b.trace :: (List.range (n + 1)).map fun k =>
          dev.byte (b.trace ++ [IicEvent.recv true] ++ List.replicate k (.recv true)) := by
      rw [List.range_succ_eq_map (n := n + 1), List.map_cons, List.map_map]
      simp [Function.comp_def, List.replicate_succ]
    rw [recvBytes, run_bind_of (run_readByte true b), run_bind_of hrun, hrest]
    rfl

/-- Without one of the acknowledges nothing is read. -/
theorem run_iicRead_nacked (hfree : b.held = false) (h : ¬Acked dev slaveAddr readAddr b.trace)
    (size : UInt16) :
    ∃ b', (iicRead dev slaveAddr readAddr size).run b = some ((-1, []), b') := by
  rw [iicRead_eq, run_bind_of (run_pend hfree), iicStart, run_bind_of (run_emit _ _)]
  cases h0 : dev.nack (readPoint slaveAddr readAddr b.trace 0) with
  | true => exact ⟨_, run_sendChecked_nacked _ _ (by simpa [readPoint] using h0)⟩
  | false =>
    rw [run_sendChecked_acked _ _ (by simpa [readPoint] using h0)]
    cases h1 : dev.nack (readPoint slaveAddr readAddr b.trace 1) with
    | true => exact ⟨_, run_sendChecked_nacked _ _ (by simpa [readPoint] using h1)⟩
    | false =>
      rw [run_sendChecked_acked _ _ (by simpa [readPoint] using h1), run_bind_of (run_emit _ _)]
      cases h2 : dev.nack (readPoint slaveAddr readAddr b.trace 2) with
      | true => exact ⟨_, run_sendChecked_nacked _ _ (by simpa [readPoint] using h2)⟩
      | false =>
        refine absurd (fun i => ?_) h
        fin_cases i
        · exact h0
        · exact h1
        · exact h2

/-- With all of them the whole buffer is. -/
theorem run_iicRead_acked (hfree : b.held = false) (h : Acked dev slaveAddr readAddr b.trace)
    (size : UInt16)
    (hsize : 0 < size.toUInt8) : ∃ b', (iicRead dev slaveAddr readAddr size).run b =
      some ((size.toUInt8, (List.range size.toUInt8.toNat).map fun k =>
        dev.byte (readTrace slaveAddr readAddr b.trace k)), b') ∧ b'.held = false := by
  have h0 := h 0
  have h1 := h 1
  have h2 := h 2
  rw [iicRead_eq, run_bind_of (run_pend hfree), iicStart, run_bind_of (run_emit _ _),
    run_sendChecked_acked _ _ (by simpa [readPoint] using h0),
    run_sendChecked_acked _ _ (by simpa [readPoint] using h1), run_bind_of (run_emit _ _),
    run_sendChecked_acked _ _ (by simpa [readPoint] using h2)]
  obtain ⟨b', hrun⟩ := run_recvBytes dev (size.toUInt8.toNat - 1)
    ⟨true, readPoint slaveAddr readAddr b.trace 2 ++ [IicEvent.wait false]⟩
  have hcount : size.toUInt8.toNat - 1 + 1 = size.toUInt8.toNat := Nat.sub_add_cancel hsize
  have hrecv {t : List IicEvent}
    (ht : t = readPoint slaveAddr readAddr b.trace 2 ++ [IicEvent.wait false]) :
      (recvBytes dev (size.toUInt8.toNat - 1)).run ⟨true, t⟩ =
      some ((List.range size.toUInt8.toNat).map fun k =>
        dev.byte (readTrace slaveAddr readAddr b.trace k), b') := by
    rw [ht, hrun, hcount]
    rfl
  rw [run_bind_of (hrecv (by simp [readPoint])), iicStop, run_bind_of (run_emit _ _),
    run_bind_of (run_post _)]
  exact ⟨_, rfl, rfl⟩

/-! ### Writing -/

theorem run_sendBytes (hack : ∀ t, dev.nack t = false) (wBuf : List UInt8) (b : IicBus) :
    (sendBytes dev wBuf).run b =
      some (false, ⟨b.held, b.trace ++ wBuf.flatMap fun v => [IicEvent.send v, .wait false]⟩) := by
  induction wBuf generalizing b with
  | nil => simp [sendBytes]
  | cons v wBuf ih =>
    rw [sendBytes, iicSendByte, run_bind_of (run_emit _ _), run_bind_of (run_acked (hack _)),
      if_neg (by decide), ih]
    simp

/-- What has happened after a write that is acknowledged throughout. -/
def writeTrace (slaveAddr writeAddr : UInt8) (wBuf : List UInt8) : List IicEvent :=
  [.pend, .start, .send slaveAddr, .wait false, .send writeAddr, .wait false] ++
    (wBuf.flatMap fun v => [.send v, .wait false]) ++ [.stop, .post]

theorem run_iicWrite (hack : ∀ t, dev.nack t = false) (hfree : b.held = false) (writeAddr : UInt8)
    {wBuf : List UInt8} (hlen : wBuf.length < 256) : (iicWrite dev slaveAddr writeAddr wBuf).run b =
      some (UInt8.ofNat wBuf.length, ⟨false, b.trace ++ writeTrace slaveAddr writeAddr wBuf⟩) := by
  have htake : wBuf.take (UInt8.ofNat wBuf.length).toNat = wBuf := by
    rw [UInt8.toNat_ofNat_of_lt' hlen, List.take_length]
  rw [iicWrite_eq, run_bind_of (run_pend hfree), iicStart, run_bind_of (run_emit _ _),
    run_sendChecked_acked _ _ (hack _), run_sendChecked_acked _ _ (hack _), htake,
    run_bind_of (run_sendBytes hack _ _), if_neg (by decide), iicStop, run_bind_of (run_emit _ _),
    run_bind_of (run_post _)]
  simp [writeTrace]

end Iic

end VectorFence
