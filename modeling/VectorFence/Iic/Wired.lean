import VectorFence.Iic.Chip
import VectorFence.Iic.Mutex

/-! The EEPROM driver down to the pins. Everything that happens on the bus is done on the two lines;
    what the driver gets to know of the devices it reads from SDA. With a 24C256 on the lines the
    driver is the memory `Eeprom`. -/

namespace VectorFence

open TwoWire

namespace Pins

variable {σ : Type} (S : Slave σ) (w₀ : Pair σ)

def exec (w : Pair σ) : IicEvent → Pair σ
  | .pend | .post => w
  | .start => iicStart S w
  | .stop => iicStop S w
  | .send txd => iicSendByte S txd w
  | .wait _ => (ackBit S w).2
  | .recv ack => (iicReadByte S ack w).2

/-- The lines after everything that has happened. -/
def replay (trace : List IicEvent) : Pair σ := trace.foldl (exec S) w₀

/-- What the lines say. -/
def wired : IicSlaves where
  nack trace := (ackBit S (replay S w₀ trace)).1
  byte trace := (iicReadByte S true (replay S w₀ trace)).1

variable {S w₀} {s : σ} {held : Bool}

@[simp]
theorem replay_concat (trace : List IicEvent) (e : IicEvent) :
    replay S w₀ (trace ++ [e]) = exec S (replay S w₀ trace) e := by
  rw [replay, List.foldl_append]
  rfl

variable (S w₀) in
/-- `IIC_Wait_Ack` on the bus is `IIC_Wait_Ack` on the pins. -/
theorem waitAck_wired (b : IicBus) : ∃ b', (Iic.iicWaitAck (wired S w₀)).run b =
    some ((iicWaitAck S (replay S w₀ b.trace)).1, b') ∧ b'.held = b.held ∧
      replay S w₀ b'.trace = (iicWaitAck S (replay S w₀ b.trace)).2 := by
  cases h : (ackBit S (replay S w₀ b.trace)).1 with
  | false =>
    have hnack : (wired S w₀).nack b.trace = false := h
    have hwait : iicWaitAck S (replay S w₀ b.trace) = (false, (ackBit S (replay S w₀ b.trace)).2) := by
      rw [iicWaitAck, if_neg (by simp [h]), ← h]
    rw [hwait, Iic.run_waitAck, hnack, if_neg (by simp), List.append_nil]
    exact ⟨_, rfl, rfl, replay_concat ..⟩
  | true =>
    have hnack : (wired S w₀).nack b.trace = true := h
    have hwait : iicWaitAck S (replay S w₀ b.trace) = (true,
      iicStop S (ackBit S (replay S w₀ b.trace)).2) := by
      rw [iicWaitAck, if_pos h]
    rw [hwait, Iic.run_waitAck, hnack, if_pos rfl]
    refine ⟨_, rfl, rfl, ?_⟩
    rw [replay_concat, replay_concat]
    rfl

/-- The mutex, and a slave `s` with the clock low … -/
def LowAt (S : Slave σ) (w₀ : Pair σ) (held : Bool) (s : σ) (b : IicBus) : Prop :=
  b.held = held ∧ (replay S w₀ b.trace).Low s

/-- … and on a free bus. -/
def FreeAt (S : Slave σ) (w₀ : Pair σ) (held : Bool) (s : σ) (b : IicBus) : Prop :=
  b.held = held ∧ (replay S w₀ b.trace).Free s

/-! ### The functions of the driver -/

theorem ends_pend : Ends (FreeAt S w₀ false s) Iic.osMutexPend fun _ => FreeAt S w₀ true s := by
  intro b hb
  refine ⟨(), { held := true, trace := b.trace ++ [.pend] }, if_neg (by simp [hb.1]), rfl, ?_⟩
  rw [replay_concat]
  exact hb.2

theorem ends_post : Ends (FreeAt S w₀ true s) Iic.osMutexPost fun _ => FreeAt S w₀ false s := by
  refine Ends.modify fun b hb => ⟨rfl, ?_⟩
  rw [replay_concat]
  exact hb.2

theorem ends_start (hs : S.release s = true) :
    Ends (FreeAt S w₀ held s) Iic.iicStart fun _ => LowAt S w₀ held (S.next s .start) := by
  refine Ends.modify fun b hb => ⟨hb.1, ?_⟩
  rw [replay_concat]
  exact start_free hb.2 hs

theorem ends_restart (hs : S.release s = true) :
    Ends (LowAt S w₀ held s) Iic.iicStart fun _ => LowAt S w₀ held (S.next s .start) := by
  refine Ends.modify fun b hb => ⟨hb.1, ?_⟩
  rw [replay_concat]
  exact start_low hb.2 hs

theorem ends_stop (hs : S.release s = true) :
    Ends (LowAt S w₀ held s) Iic.iicStop fun _ => FreeAt S w₀ held (S.next s .stop) := by
  refine Ends.modify fun b hb => ⟨hb.1, ?_⟩
  rw [replay_concat]
  exact stop_low hb.2 hs

theorem ends_send (txd : UInt8) :
    Ends (LowAt S w₀ held s) (Iic.iicSendByte txd) fun _ => LowAt S w₀ held
    (taken S s (txdBits txd)) := by
  refine Ends.modify fun b hb => ⟨hb.1, ?_⟩
  rw [replay_concat]
  exact send_low hb.2 txd

theorem ends_ack (hs : S.release s = false) :
    Ends (LowAt S w₀ held s) (Iic.iicWaitAck (wired S w₀)) fun _ => LowAt S w₀ held
    (S.next s (.bit false)) := by
  intro b hb
  obtain ⟨hack, hlow⟩ := ack_low hb.2 hs
  obtain ⟨b', hrun, hheld, hreplay⟩ := waitAck_wired S w₀ b
  refine ⟨_, b', hrun, hheld.trans hb.1, ?_⟩
  rw [hreplay, iicWaitAck, if_neg (by simp [hack])]
  exact hlow

theorem ends_recv (ack : Bool) :
    Ends (LowAt S w₀ held s) (Iic.iicReadByte (wired S w₀) ack) fun v b => v = ofBits 0
    (received S 8 s).1 ∧
      LowAt S w₀ held (S.next (received S 8 s).2 (.bit (!ack && S.release (received S 8 s).2))) b := by
  intro b hb
  obtain ⟨hbyte, hlow⟩ := read_low hb.2 ack
  refine ⟨_, _, rfl, hbyte, hb.1, ?_⟩
  rw [replay_concat]
  exact hlow

end Pins

namespace Chip

open Pins

variable {w₀ : Pair Chip} {held : Bool} {c : Chip} {txd : UInt8} {α : Type} {k : Iic α}
  {Q : α → IicBus → Prop}

/-- What the chip does behind an acknowledge. -/
def after : Option ChipPart → ChipPhase
  | some part => .shift part 0 0
  | none => .send 0

/-- A byte that the chip takes and acknowledges. -/
theorem ends_sendAck (part : ChipPart) (next : Option ChipPart) (hphase : c.phase = .shift part 0 0)
    (hack : (c.take txd part).phase = .ack next)
    (hk : Ends (LowAt slave w₀ held { c.take txd part with phase := after next }) k Q) :
    Ends (LowAt slave w₀ held c) (do
      Iic.iicSendByte txd
      let _ ← Iic.iicWaitAck (wired slave w₀)
      k) Q := by
  have hrelease : slave.release (c.take txd part) = false := by simp only [slave, release, hack]
  have hnext : slave.next (c.take txd part)
    (.bit false) = { c.take txd part with phase := after next } := by
    cases next <;> simp only [slave, nextBit, hack, after]
  refine Ends.bind (ends_send txd) fun _ => ?_
  rw [taken_byte hphase]
  refine Ends.bind (ends_ack hrelease) fun _ => ?_
  rw [hnext]
  exact hk

/-- The address as the chip has it; its highest bit is not used. -/
theorem address (a : UInt16) :
    ((a >>> 8).toUInt8.toNat * 256 + (a % 256).toUInt8.toNat) % 0x8000 = a.toNat % 0x8000 := by
  have hlt := a.toNat_lt
  have hhigh : (a >>> 8).toUInt8.toNat = a.toNat / 256 := by
    rw [UInt16.toNat_toUInt8, UInt16.toNat_shiftRight, Nat.shiftRight_eq_div_pow]
    exact Nat.mod_eq_of_lt (by simp; omega)
  have hlow : (a % 256).toUInt8.toNat = a.toNat % 256 := by
    rw [UInt16.toNat_toUInt8, UInt16.toNat_mod]
    exact Nat.mod_mod _ _
  rw [hhigh, hlow, Nat.div_add_mod']

/-- Between two calls: the mutex and the bus are free, and the chip waits with the memory `m`. -/
def Settled (w₀ : Pair Chip) (m : Eeprom) (b : IicBus) : Prop :=
  ∃ c : Chip, FreeAt slave w₀ false c b ∧ c.phase = .idle ∧ c.mem = m

variable {m : Eeprom}

variable (w₀ m) in
theorem ends_writeOneByte (writeAddr : UInt16) (dataToWrite : UInt8) :
    Ends (Settled w₀ m) (Iic.at24cxxWriteOneByte (wired slave w₀) writeAddr dataToWrite)
      fun _ => Settled w₀ (m.at24cxxWriteOneByte (writeAddr.toNat % 0x8000) dataToWrite) := by
  rintro b ⟨c, hfree, hphase, rfl⟩
  have hrelease : slave.release c = true := by simp only [slave, release, hphase]
  refine Ends.bind ends_pend (fun _ => Ends.bind (ends_start hrelease) fun _ => ?_) b hfree
  refine ends_sendAck .device (some .high) rfl rfl ?_
  refine ends_sendAck .high (some .low) rfl rfl ?_
  refine ends_sendAck .low (some .data) rfl rfl ?_
  refine ends_sendAck .data (some .data) rfl rfl ?_
  refine Ends.bind (ends_stop rfl) fun _ => ?_
  refine ends_post.imp (fun b hb => hb) fun _ b hb => ⟨_, hb, phase_stop _, ?_⟩
  change c.mem.burn [(((writeAddr >>> 8).toUInt8.toNat * 256 + (writeAddr % 256).toUInt8.toNat) %
    0x8000, dataToWrite)] = _
  rw [address]
  rfl

/-- The byte behind the address, up to the end of a read. -/
theorem ends_readLast (hphase : c.phase = .send 0) :
    Ends (LowAt slave w₀ true c) (do
      let temp ← Iic.iicReadByte (wired slave w₀) false
      Iic.iicStop
      Iic.osMutexPost
      return temp) fun v b => v = c.mem c.ptr ∧ Settled w₀ c.mem b := by
  obtain ⟨hbyte, hsent⟩ := received_byte hphase
  have hrelease : slave.release { c with phase := .sent } = true := rfl
  refine Ends.bind (ends_recv false) fun v => ?_
  rw [hbyte, hsent, hrelease]
  -- the chip is not acknowledged, and waits for the stop
  set s := slave.next { c with phase := .sent } (.bit (!false && true)) with hs
  have hstop : Ends (fun b => v = c.mem c.ptr ∧ LowAt slave w₀ true s b) Iic.iicStop
      fun _ b => v = c.mem c.ptr ∧ FreeAt slave w₀ true (slave.next s .stop) b := by
    rintro b ⟨hv, hb⟩
    obtain ⟨_, b', hrun, hb'⟩ := ends_stop rfl b hb
    exact ⟨_, b', hrun, hv, hb'⟩
  refine hstop.bind fun _ => ?_
  rintro b ⟨hv, hb⟩
  obtain ⟨_, b', hrun, hb'⟩ := ends_post b hb
  exact ⟨v, b', run_bind_of hrun _, hv, _, hb', phase_stop _, rfl⟩

variable (w₀ m) in
theorem ends_readOneByte (readAddr : UInt16) :
    Ends (Settled w₀ m) (Iic.at24cxxReadOneByte (wired slave w₀) readAddr)
      fun v b => v = m.at24cxxReadOneByte (readAddr.toNat % 0x8000) ∧ Settled w₀ m b := by
  rintro b ⟨c, hfree, hphase, rfl⟩
  have hrelease : slave.release c = true := by simp only [slave, release, hphase]
  refine Ends.bind ends_pend (fun _ => Ends.bind (ends_start hrelease) fun _ => ?_) b hfree
  refine ends_sendAck .device (some .high) rfl rfl ?_
  refine ends_sendAck .high (some .low) rfl rfl ?_
  refine ends_sendAck .low (some .data) rfl rfl ?_
  refine Ends.bind (ends_restart rfl) fun _ => ?_
  refine ends_sendAck .device none rfl rfl ?_
  refine (ends_readLast rfl).imp (fun b hb => hb) fun v b hb => ⟨hb.1.trans ?_, hb.2⟩
  change c.mem (((readAddr >>> 8).toUInt8.toNat * 256 + (readAddr % 256).toUInt8.toNat) % 0x8000) = _
  rw [address, Eeprom.readOneByte_eq _ (by omega)]

/-! ### The calls of the driver -/

theorem toNat_add_one {a : UInt16} {n : ℕ} (h : a.toNat + (n + 1) ≤ 0x8000) :
    (a + 1).toNat = a.toNat + 1 := by
  rw [UInt16.toNat_add]
  exact Nat.mod_eq_of_lt (by simp; omega)

theorem ends_byte {a : UInt16} (h : a.toNat < 0x8000) :
    Ends (Settled w₀ m) (Iic.at24cxxReadOneByte (wired slave w₀) a)
      fun v b => v = m.at24cxxReadOneByte a.toNat ∧ Settled w₀ m b := by
  have hread := ends_readOneByte w₀ m a
  rwa [Nat.mod_eq_of_lt h] at hread

theorem ends_write_byte {a : UInt16} (h : a.toNat < 0x8000) (v : UInt8) :
    Ends (Settled w₀ m) (Iic.at24cxxWriteOneByte (wired slave w₀) a v)
      fun _ => Settled w₀ (m.at24cxxWriteOneByte a.toNat v) := by
  have hwrite := ends_writeOneByte w₀ m a v
  rwa [Nat.mod_eq_of_lt h] at hwrite

theorem ends_read {n : ℕ} {a : UInt16} (h : a.toNat + n ≤ 0x8000) :
    Ends (Settled w₀ m) (Iic.at24cxxRead (wired slave w₀) a n)
      fun l b => l = m.at24cxxRead a.toNat n ∧ Settled w₀ m b := by
  induction n generalizing a with
  | zero => exact Ends.pure fun b hb => ⟨rfl, hb⟩
  | succ n ih =>
    refine Ends.bind (ends_byte (by omega)) fun v b hb => ?_
    obtain ⟨rfl, hb⟩ := hb
    have hnext := ih (a := a + 1) (by rw [toNat_add_one h]; omega)
    obtain ⟨l, b', hrun, rfl, hb'⟩ := hnext b hb
    refine ⟨_, b', run_bind_of hrun _, ?_, hb'⟩
    rw [toNat_add_one h]
    rfl

theorem ends_write {pBuffer : List UInt8} {a : UInt16} (h : a.toNat + pBuffer.length ≤ 0x8000) :
    Ends (Settled w₀ m) (Iic.at24cxxWrite (wired slave w₀) a pBuffer)
      fun _ => Settled w₀ (m.at24cxxWrite a.toNat pBuffer) := by
  induction pBuffer generalizing a m with
  | nil => exact Ends.pure fun b hb => hb
  | cons v pBuffer ih =>
    rw [List.length_cons] at h
    refine Ends.bind (ends_write_byte (by omega) v) fun _ => ?_
    have hnext := ih (m := m.at24cxxWriteOneByte a.toNat v) (a := a + 1)
      (by rw [toNat_add_one h]; omega)
    rwa [toNat_add_one h] at hnext

/-- The bytes of a number from the highest address down. -/
theorem ends_readLenByte {len : ℕ} {a : UInt16} (temp : UInt32) (h : a.toNat + len ≤ 0x8000) :
    Ends (Settled w₀ m) (Iic.at24cxxReadLenByte (wired slave w₀) a temp len) fun v b =>
      v.toNat = (List.range len).foldl (fun temp t =>
        (temp <<< 8 + (m.at24cxxReadOneByte (a.toNat + len - t - 1)).toNat) % 0x100000000) temp.toNat ∧
      Settled w₀ m b := by
  induction len generalizing temp with
  | zero => exact Ends.pure fun b hb => ⟨rfl, hb⟩
  | succ len ih =>
    have haddr : (a + UInt16.ofNat len).toNat = a.toNat + len := by
      rw [UInt16.toNat_add, UInt16.toNat_ofNat']
      omega
    refine Ends.bind (ends_byte (by omega)) fun v b hb => ?_
    obtain ⟨rfl, hb⟩ := hb
    obtain ⟨v, b', hrun, hv, hb'⟩ :=
      ih (temp <<< 8 + (m.at24cxxReadOneByte (a + UInt16.ofNat len).toNat).toUInt32) (by omega) b hb
    refine ⟨v, b', hrun, ?_, hb'⟩
    rw [hv, haddr, List.range_succ_eq_map, List.foldl_cons, List.foldl_map]
    have hshift : (temp <<< 8 + (m.at24cxxReadOneByte (a.toNat + len)).toUInt32).toNat =
        (temp.toNat <<< 8 + (m.at24cxxReadOneByte (a.toNat + (len + 1) - 0 - 1)).toNat) %
        0x100000000 := by
      rw [UInt32.toNat_add, UInt32.toNat_shiftLeft, UInt8.toNat_toUInt32]
      simp
    rw [hshift]
    simp only [Nat.succ_eq_add_one, ← Nat.add_assoc, Nat.add_sub_add_right]

theorem ends_writeLenByte {len : ℕ} {a : UInt16} {v : UInt32} (h : a.toNat + len ≤ 0x8000) :
    Ends (Settled w₀ m) (Iic.at24cxxWriteLenByte (wired slave w₀) a v len)
      fun _ => Settled w₀ (m.at24cxxWriteLenByte a.toNat v.toNat len) := by
  induction len generalizing a v m with
  | zero => exact Ends.pure fun b hb => hb
  | succ len ih =>
    refine Ends.bind (ends_write_byte (by omega) v.toUInt8) fun _ => ?_
    have hnext := ih (m := m.at24cxxWriteOneByte a.toNat v.toUInt8) (a := a + 1) (v := v >>> 8)
      (by rw [toNat_add_one h]; omega)
    have hbyte (t : ℕ) : (v >>> 8).toNat >>> (8 * t) = v.toNat >>> (8 * (t + 1)) := by
      rw [UInt32.toNat_shiftRight, ← Nat.shiftRight_add, Nat.mul_succ, Nat.add_comm]
      rfl
    have hfirst : v.toUInt8 = UInt8.ofNat (v.toNat >>> (8 * 0) &&& 0xff) := by
      rw [Eeprom.ofNat_byte, pow_zero, Nat.div_one]
      rfl
    rw [toNat_add_one h, Eeprom.at24cxxWriteLenByte] at hnext
    rw [Eeprom.at24cxxWriteLenByte, List.range_succ_eq_map, List.foldl_cons, List.foldl_map, ← hfirst]
    simp only [hbyte, Nat.add_assoc, Nat.add_comm 1] at hnext
    exact hnext

end Chip

/-- A call of the driver. -/
inductive EepromCall where
  | readOneByte (readAddr : UInt16)
  | writeOneByte (writeAddr : UInt16) (dataToWrite : UInt8)
  | read (readAddr numToRead : UInt16)
  | write (writeAddr : UInt16) (pBuffer : List UInt8)
  | readLenByte (readAddr : UInt16) (len : UInt8)
  | writeLenByte (writeAddr : UInt16) (dataToWrite : UInt32) (len : UInt8)

/-- What a call gives back. -/
inductive EepromAnswer where
  | done
  | byte (temp : UInt8)
  | bytes (pBuffer : List UInt8)
  | number (temp : ℕ)
  deriving DecidableEq

namespace EepromCall

/-- The call on the bus … -/
def exec (dev : IicSlaves) : EepromCall → Iic EepromAnswer
  | readOneByte readAddr => .byte <$> Iic.at24cxxReadOneByte dev readAddr
  | writeOneByte writeAddr dataToWrite =>
      (fun _ => .done) <$> Iic.at24cxxWriteOneByte dev writeAddr dataToWrite
  | read readAddr numToRead => .bytes <$> Iic.at24cxxRead dev readAddr numToRead.toNat
  | write writeAddr pBuffer => (fun _ => .done) <$> Iic.at24cxxWrite dev writeAddr pBuffer
  | readLenByte readAddr len =>
      (fun v => .number v.toNat) <$> Iic.at24cxxReadLenByte dev readAddr 0 len.toNat
  | writeLenByte writeAddr dataToWrite len =>
      (fun _ => .done) <$> Iic.at24cxxWriteLenByte dev writeAddr dataToWrite len.toNat

/-- … and on a memory. -/
def apply (m : Eeprom) : EepromCall → EepromAnswer × Eeprom
  | readOneByte readAddr => (.byte (m.at24cxxReadOneByte readAddr.toNat), m)
  | writeOneByte writeAddr dataToWrite => (.done, m.at24cxxWriteOneByte writeAddr.toNat dataToWrite)
  | read readAddr numToRead => (.bytes (m.at24cxxRead readAddr.toNat numToRead.toNat), m)
  | write writeAddr pBuffer => (.done, m.at24cxxWrite writeAddr.toNat pBuffer)
  | readLenByte readAddr len => (.number (m.at24cxxReadLenByte readAddr.toNat len.toNat), m)
  | writeLenByte writeAddr dataToWrite len =>
      (.done, m.at24cxxWriteLenByte writeAddr.toNat dataToWrite.toNat len.toNat)

/-- The call stays within the chip, which has `EE_ADDR_MAX` 32767. -/
def InChip : EepromCall → Prop
  | readOneByte a | writeOneByte a _ => a.toNat < 0x8000
  | read a n => a.toNat + n.toNat ≤ 0x8000
  | write a pBuffer => a.toNat + pBuffer.length ≤ 0x8000
  | readLenByte a len | writeLenByte a _ len => a.toNat + len.toNat ≤ 0x8000

/-- One call after another, and what they give back. -/
def run (m : Eeprom) : List EepromCall → List EepromAnswer × Eeprom
  | [] => ([], m)
  | call :: calls =>
      let r := run (call.apply m).2 calls
      ((call.apply m).1 :: r.1, r.2)

variable {w₀ : TwoWire.Pair Chip} {m : Eeprom}

/-- On the bus a call does what it does on the memory. -/
theorem ends_exec {call : EepromCall} (h : call.InChip) :
    Ends (Chip.Settled w₀ m) (call.exec (Pins.wired Chip.slave w₀))
    fun answer b => answer = (call.apply m).1 ∧ Chip.Settled w₀ (call.apply m).2 b := by
  have hmap {α : Type} {k : Iic α} {Q : α → IicBus → Prop} {f : α → EepromAnswer}
    (hk : Ends (Chip.Settled w₀ m) k Q)
      (hf : ∀ a b, Q a b → f a = (call.apply m).1 ∧ Chip.Settled w₀ (call.apply m).2 b) :
      Ends (Chip.Settled w₀ m) (f <$> k)
        fun answer b => answer = (call.apply m).1 ∧ Chip.Settled w₀ (call.apply m).2 b := by
    rw [map_eq_pure_bind]
    exact Ends.bind hk fun a => Ends.pure fun b hb => hf a b hb
  cases call with
  | readOneByte a => exact hmap (Chip.ends_byte h) fun v b hb => ⟨congrArg _ hb.1, hb.2⟩
  | writeOneByte a v => exact hmap (Chip.ends_write_byte h v) fun _ b hb => ⟨rfl, hb⟩
  | read a n => exact hmap (Chip.ends_read h) fun l b hb => ⟨congrArg _ hb.1, hb.2⟩
  | write a pBuffer => exact hmap (Chip.ends_write h) fun _ b hb => ⟨rfl, hb⟩
  | readLenByte a len => exact hmap (Chip.ends_readLenByte 0 h) fun v b hb => ⟨congrArg _ hb.1, hb.2⟩
  | writeLenByte a v len => exact hmap (Chip.ends_writeLenByte h) fun _ b hb => ⟨rfl, hb⟩

/-- Over a run, from a free bus with the chip waiting, the driver is the memory in the chip: every
    call gives back what it gives back on the memory, and the memory that it leaves is in the chip.
    The delays are not modelled, and a byte is in the chip with the stop condition, without the
    write cycle in which the chip does not answer. -/
theorem exec_run {b : IicBus} (hb : Chip.Settled w₀ m b) (calls : List EepromCall)
    (h : ∀ call ∈ calls, call.InChip) :
    ∃ b', (calls.mapM (exec (Pins.wired Chip.slave w₀))).run b = some ((run m calls).1, b') ∧
      Chip.Settled w₀ (run m calls).2 b' := by
  induction calls generalizing m b with
  | nil => exact ⟨b, rfl, hb⟩
  | cons call calls ih =>
    obtain ⟨answer, b', hrun, rfl, hb'⟩ := ends_exec (h call List.mem_cons_self) b hb
    obtain ⟨b'', hrun', hb''⟩ := ih hb' fun call' hcall => h call' (List.mem_cons_of_mem _ hcall)
    refine ⟨b'', ?_, hb''⟩
    rw [List.mapM_cons, run_bind_of hrun, run_bind_of hrun']
    rfl

/-- The lines after `IIC_Init`, with a chip that has just got its supply. -/
def powerUp (m : Eeprom) : TwoWire.Pair Chip :=
  { scl := true, latch := true, out := true, cond := true,
    slave := { mem := m, ptr := 0, pending := [], phase := .idle } }

theorem settled_powerUp (m : Eeprom) : Chip.Settled (powerUp m) m Iic.idle :=
  ⟨(powerUp m).slave, ⟨rfl, rfl, rfl, rfl, rfl⟩, rfl, rfl⟩

/-- A number is written and read back. -/
theorem exec_run_number :
    (∀ call ∈ [writeLenByte 0x7FFC 0x12345678 4, readLenByte 0x7FFC 4, read 0x7FFE 2], call.InChip) ∧
    ∃ b', ([writeLenByte 0x7FFC 0x12345678 4, readLenByte 0x7FFC 4, read 0x7FFE 2].mapM
        (exec (Pins.wired Chip.slave (powerUp fun _ => 0xFF)))).run Iic.idle =
      some ([.done, .number 0x12345678, .bytes [0x34, 0x12]], b') := by
  have hin : ∀ call ∈ [writeLenByte 0x7FFC 0x12345678 4, readLenByte 0x7FFC 4, read 0x7FFE 2],
    call.InChip := by
    simp [InChip]
  obtain ⟨b', hrun, -⟩ := exec_run (settled_powerUp fun _ => 0xFF) _ hin
  exact ⟨hin, b', hrun⟩

end EepromCall

end VectorFence
