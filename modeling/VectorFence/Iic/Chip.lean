import VectorFence.Eeprom
import VectorFence.Iic.Pins

/-! The 24C256 on the bus: what its data sheet says of a chip with the address 0xA0. It acknowledges
    the bytes that it takes, and sends bytes from the address where it stands. What is written goes
    to the memory at the stop.

        start 0xA0 ack  high ack  low ack  data ack  stop            a byte is written
        start 0xA0 ack  high ack  low ack  start 0xA1 ack  byte …    and read -/

namespace VectorFence

open TwoWire

/-- What a byte that the chip takes is. -/
inductive ChipPart where | device | high | low | data
  deriving DecidableEq, Repr

/-- After an acknowledge the chip takes the next byte, or it sends. -/
inductive ChipPhase where
  | idle
  | shift (part : ChipPart) (acc : UInt8) (n : ℕ)
  | ack (next : Option ChipPart)
  | send (n : ℕ)
  | sent

structure Chip where
  mem : Eeprom
  ptr : ℕ
  pending : List (ℕ × UInt8)
  phase : ChipPhase

namespace Chip

/-- A byte has been taken. The bytes of a page of 64 are written in a circle. -/
def take (c : Chip) (acc : UInt8) : ChipPart → Chip
  | .device =>
      if acc = 0xA0 then { c with phase := .ack (some .high) }
      else if acc = 0xA1 then { c with phase := .ack none }
      else { c with phase := .idle }
  | .high => { c with ptr := acc.toNat * 256, phase := .ack (some .low) }
  | .low => { c with ptr := (c.ptr + acc.toNat) % 0x8000, phase := .ack (some .data) }
  | .data =>
      { c with
        pending := c.pending ++ [(c.ptr, acc)]
        ptr := c.ptr / 64 * 64 + (c.ptr + 1) % 64
        phase := .ack (some .data) }

def nextBit (c : Chip) (b : Bool) : Chip :=
  match c.phase with
  | .idle => c
  | .shift part acc n =>
      let acc := (acc <<< 1) + if b then 1 else 0
      if n < 7 then { c with phase := .shift part acc (n + 1) } else c.take acc part
  | .ack (some part) => { c with phase := .shift part 0 0 }
  | .ack none => { c with phase := .send 0 }
  | .send n => if n < 7 then { c with phase := .send (n + 1) } else { c with phase := .sent }
  | .sent => { c with ptr := (c.ptr + 1) % 0x8000, phase := if b then .idle else .send 0 }

/-- A write is complete with a stop behind a whole byte. -/
def stop (c : Chip) : Chip :=
  match c.phase with
  | .shift .data _ 0 => { c with mem := c.mem.burn c.pending, pending := [], phase := .idle }
  | _ => { c with pending := [], phase := .idle }

def release (c : Chip) : Bool :=
  match c.phase with
  | .ack _ => false
  | .send n => (c.mem c.ptr <<< UInt8.ofNat n) &&& 0x80 = 0x80
  | _ => true

@[simp]
theorem phase_stop (c : Chip) : c.stop.phase = .idle := by
  rw [stop]
  split <;> rfl

/-- The chip, a slave of the bus. -/
def slave : Slave Chip where
  next c
    | .start => { c with pending := [], phase := .shift .device 0 0 }
    | .stop => c.stop
    | .bit b => c.nextBit b
  release := release
  release_start _ := rfl
  release_stop c := by rw [release, phase_stop]

/-! ### Bytes -/

/-- The bits of a byte make the byte again. -/
theorem ofBits_txdBits (txd : UInt8) : Pins.ofBits 0 (Pins.txdBits txd) = txd := by
  have h : ∀ n : Fin 256, Pins.ofBits 0 (Pins.txdBits (UInt8.ofNat n)) = UInt8.ofNat n := by
    decide +kernel
  simpa using h ⟨txd.toNat, txd.toNat_lt⟩

theorem take_phase (c : Chip) (phase : ChipPhase) (acc : UInt8) (part : ChipPart) :
    { c with phase := phase }.take acc part = c.take acc part := by
  cases part with
  | device =>
    simp only [take]
  | high | low | data => rfl

/-- The chip takes what is left of a byte. -/
theorem taken_shift {c : Chip} {part : ChipPart} {acc : UInt8} {n : ℕ} {bits : List Bool}
    (hphase : c.phase = .shift part acc n)
    (hlen : n + bits.length = 8) (hlt : n < 8) :
    taken slave c bits = c.take (Pins.ofBits acc bits) part := by
  induction bits generalizing c acc n with
  | nil =>
    rw [List.length_nil] at hlen
    omega
  | cons b bits ih =>
    rw [List.length_cons] at hlen
    have hrelease : slave.release c = true := by simp only [slave, release, hphase]
    rw [taken, hrelease, Bool.and_true]
    by_cases hlast : n < 7
    · have hnext : slave.next c
        (.bit b) = { c with phase := .shift part ((acc <<< 1) + if b then 1 else 0) (n + 1) } := by
        simp only [slave, nextBit, hphase, if_pos hlast]
      rw [hnext, ih rfl (by omega) (by omega), take_phase]
      rfl
    · have hnil : bits = [] := List.length_eq_zero_iff.mp (by omega)
      simp only [hnil, taken, slave, nextBit, hphase, if_neg hlast]
      rfl

theorem taken_byte {c : Chip} {part : ChipPart} (hphase : c.phase = .shift part 0 0) (txd : UInt8) :
    taken slave c (Pins.txdBits txd) = c.take txd part := by
  rw [taken_shift hphase (by simp [Pins.txdBits]) (by decide), ofBits_txdBits]

/-- The chip sends the rest of its byte. -/
theorem received_send {c : Chip} {n k : ℕ} (hphase : c.phase = .send n) (hlen : n + k = 7) :
    received slave (k + 1) c =
      ((List.range' n (k + 1)).map fun t => decide ((c.mem c.ptr <<< UInt8.ofNat t) &&& 0x80 = 0x80),
        { c with phase := .sent }) := by
  induction k generalizing c n with
  | zero =>
    have hlast : ¬n < 7 := by omega
    simp [received, slave, release, nextBit, hphase, hlast]
  | succ k ih =>
    have hlt : n < 7 := by omega
    have hrelease : slave.release c = decide ((c.mem c.ptr <<< UInt8.ofNat n) &&& 0x80 = 0x80) := by
      simp only [slave, release, hphase]
    have hnext : slave.next c (.bit (slave.release c)) = { c with phase := .send (n + 1) } := by
      simp only [slave, nextBit, hphase, if_pos hlt]
    rw [received, hnext, ih rfl (by omega), hrelease]
    rfl

theorem received_byte {c : Chip} (hphase : c.phase = .send 0) :
    Pins.ofBits 0 (received slave 8 c).1 = c.mem c.ptr ∧ (received slave 8 c).2 =
    { c with phase := .sent } := by
  rw [received_send hphase rfl]
  refine ⟨?_, rfl⟩
  rw [← List.range_eq_range']
  exact ofBits_txdBits (c.mem c.ptr)

end Chip

end VectorFence
