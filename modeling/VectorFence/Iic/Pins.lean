import VectorFence.Iic.Basic
import VectorFence.Lib.TwoWire

/-! The I2C driver of `myiic.c` on its two pins, PD7 for SCL and PD6 for SDA. `SDA_IN` and `SDA_OUT`
    are the direction of PD6, `IIC_SDA` its latch, `READ_SDA` its level. A delay changes no pin. -/

namespace VectorFence

open TwoWire

namespace Pins

variable {σ : Type*} (S : Slave σ)

/-- `IIC_Start`. -/
def iicStart (w : Pair σ) : Pair σ :=
  w.sdaOut S |>.setSda S true |>.setScl S true |>.setSda S false |>.setScl S false

/-- `IIC_Stop`. -/
def iicStop (w : Pair σ) : Pair σ :=
  w.sdaOut S |>.setScl S false |>.setSda S false |>.setScl S true |>.setSda S true

/-- One round of `IIC_Send_Byte`. -/
def sendBit (w : Pair σ) (b : Bool) : Pair σ := w.setSda S b |>.setScl S true |>.setScl S false

/-- `(txd&0x80)>>7` while `txd` is shifted to the left. -/
def txdBits (txd : UInt8) : List Bool :=
  (List.range 8).map fun t => (txd <<< UInt8.ofNat t) &&& 0x80 = 0x80

/-- `IIC_Send_Byte`. -/
def iicSendByte (txd : UInt8) (w : Pair σ) : Pair σ :=
  (txdBits txd).foldl (sendBit S) (w.sdaOut S |>.setScl S false)

/-- The loop of `IIC_Wait_Ack`, which looks at SDA `n + 1` times. -/
def waitLow : ℕ → Pair σ → Bool × Pair σ
  | 0, w => if w.sda S then (true, w) else (false, w.setScl S false)
  | n + 1, w => if w.sda S then waitLow n w else (false, w.setScl S false)

/-- `IIC_Wait_Ack` up to the `IIC_Stop` that follows when there is no acknowledge. -/
def ackBit (w : Pair σ) : Bool × Pair σ := waitLow S 250 (w.sdaIn S |>.setSda S true |>.setScl S true)

/-- `IIC_Wait_Ack`: true is 1, no acknowledge. -/
def iicWaitAck (w : Pair σ) : Bool × Pair σ :=
  let r := ackBit S w
  if r.1 then (true, iicStop S r.2) else r

/-- `IIC_Ack` and `IIC_NAck`. -/
def iicAck (ack : Bool) (w : Pair σ) : Pair σ :=
  w.setScl S false |>.sdaOut S |>.setSda S (!ack) |>.setScl S true |>.setScl S false

/-- The rounds of `IIC_Read_Byte`. -/
def readBits : ℕ → UInt8 → Pair σ → UInt8 × Pair σ
  | 0, receive, w => (receive, w)
  | n + 1, receive, w =>
      let w := w.setScl S false |>.setScl S true
      readBits n ((receive <<< 1) + if w.sda S then 1 else 0) w

/-- `IIC_Read_Byte`. -/
def iicReadByte (ack : Bool) (w : Pair σ) : UInt8 × Pair σ :=
  let r := readBits S 8 0 (w.sdaIn S)
  (r.1, iicAck S ack r.2)

/-! ### What the slave sees -/

variable {S} {s : σ} {w : Pair σ}

theorem start_low (h : w.Low s) (hs : S.release s = true) : (iicStart S w).Low (S.next s .start) := by
  constructor <;> simp [iicStart, Pair.sdaOut, Pair.setSda, Pair.drive, Pair.setScl, Pair.sda, h.scl,
    h.slave, hs]

theorem start_free (h : w.Free s) (hs : S.release s = true) : (iicStart S w).Low (S.next s .start) := by
  constructor <;>
    simp [iicStart, Pair.sdaOut, Pair.setSda, Pair.drive, Pair.setScl, Pair.sda, h.scl, h.slave,
      h.latch, hs]

theorem stop_low (h : w.Low s) (hs : S.release s = true) : (iicStop S w).Free (S.next s .stop) := by
  constructor <;> simp [iicStop, Pair.sdaOut, Pair.setSda, Pair.drive, Pair.setScl, Pair.sda, h.scl,
    h.slave, hs]

theorem sendBit_low (h : w.Low s) (hout : w.out = true) (b : Bool) :
    (sendBit S w b).Low (S.next s (.bit (b && S.release s))) ∧ (sendBit S w b).out = true := by
  rw [sendBit, Pair.setSda, h.drive]
  have hlow : ({ w with latch := b, out := w.out } : Pair σ).Low s := ⟨h.scl, h.slave⟩
  rw [hlow.clock, hlow.sda hout]
  exact ⟨⟨rfl, rfl⟩, hout⟩

theorem sendBits_low {bits : List Bool} (h : w.Low s) (hout : w.out = true) :
    (bits.foldl (sendBit S) w).Low (taken S s bits) := by
  induction bits generalizing w s with
  | nil => exact h
  | cons b bits ih =>
    obtain ⟨hlow, hout'⟩ := sendBit_low h hout b
    exact ih hlow hout'

theorem send_low (h : w.Low s) (txd : UInt8) : (iicSendByte S txd w).Low (taken S s (txdBits txd)) := by
  have hout : w.sdaOut S = { w with out := true } := h.drive _ _
  have hlow : (w.sdaOut S).Low s := by
    rw [hout]
    exact ⟨h.scl, h.slave⟩
  rw [iicSendByte, hlow.low]
  exact sendBits_low hlow (by rw [hout])

/-- An acknowledge ends the wait. -/
theorem ack_low (h : w.Low s) (hs : S.release s = false) :
    (ackBit S w).1 = false ∧ (ackBit S w).2.Low (S.next s (.bit false)) := by
  have hlow : ({ w with latch := true, out := false } : Pair σ).Low s := ⟨h.scl, h.slave⟩
  have hready : (w.sdaIn S).setSda S true = { w with latch := true, out := false } := by
    have hin : w.sdaIn S = { w with out := false } := h.drive _ _
    have hlow' : ({ w with out := false } : Pair σ).Low s := ⟨h.scl, h.slave⟩
    rw [hin, Pair.setSda, hlow'.drive]
  have hsda : (({ w with latch := true, out := false } : Pair σ).setScl S true).sda S = false := by
    rw [hlow.rise]
    simp [Pair.sda, h.slave, hs]
  rw [ackBit, hready, waitLow, hsda, if_neg (by simp), hlow.clock, hlow.sda_in rfl, hs]
  exact ⟨rfl, rfl, rfl⟩

/-! ### Reading -/

/-- A byte from its bits, the first of which is the highest. -/
def ofBits (receive : UInt8) (bits : List Bool) : UInt8 :=
  bits.foldl (fun receive b => (receive <<< 1) + if b then 1 else 0) receive

/-- Every round begins when the clock falls, and takes what the slave puts on the line then. -/
theorem readBits_fall {n : ℕ} {receive : UInt8} (h : (w.setScl S false).Low s)
    (hout : (w.setScl S false).out = false) :
    (readBits S n receive w).1 = ofBits receive (received S n s).1 ∧
      ((readBits S n receive w).2.setScl S false).Low (received S n s).2 := by
  induction n generalizing w s receive with
  | zero => exact ⟨rfl, h⟩
  | succ n ih =>
    have hsda : ((w.setScl S false).setScl S true).sda S = S.release s := by
      rw [h.rise]
      simp [Pair.sda, h.slave, hout]
    have hclock := h.clock (S := S)
    rw [h.sda_in hout] at hclock
    have hnext : (((w.setScl S false).setScl S true).setScl S false).Low
      (S.next s (.bit (S.release s))) := by
      rw [hclock]
      exact ⟨rfl, rfl⟩
    obtain ⟨hbyte, hlow⟩ := ih hnext (by rw [hclock]; exact hout)
    rw [readBits, hsda]
    exact ⟨hbyte, hlow⟩

theorem ack_fall (h : (w.setScl S false).Low s) (ack : Bool) :
    (iicAck S ack w).Low (S.next s (.bit (!ack && S.release s))) := by
  have hlow : ({ w.setScl S false with out := true } : Pair σ).Low s := ⟨h.scl, h.slave⟩
  have hlow' : ({ w.setScl S false with latch := !ack, out := true } : Pair σ).Low s := ⟨h.scl, h.slave⟩
  have hout : (w.setScl S false).sdaOut S = { w.setScl S false with out := true } := h.drive _ _
  rw [iicAck, hout, Pair.setSda, hlow.drive, hlow'.clock, hlow'.sda rfl]
  exact ⟨rfl, rfl⟩

/-- A byte is what the slave sends, and the acknowledge comes behind it. -/
theorem read_low (h : w.Low s) (ack : Bool) :
    (iicReadByte S ack w).1 = ofBits 0 (received S 8 s).1 ∧
      (iicReadByte S ack w).2.Low
      (S.next (received S 8 s).2 (.bit (!ack && S.release (received S 8 s).2))) := by
  have hin : w.sdaIn S = { w with out := false } := h.drive _ _
  have hlow : ({ w with out := false } : Pair σ).Low s := ⟨h.scl, h.slave⟩
  have hfall : (({ w with out := false } : Pair σ).setScl S false) = { w with out := false } := hlow.low
  rw [iicReadByte, hin]
  obtain ⟨hbyte, hend⟩ := readBits_fall (by rw [hfall]; exact hlow) (by rw [hfall])
  exact ⟨hbyte, ack_fall hend ack⟩

end Pins

end VectorFence
