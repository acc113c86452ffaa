import Mathlib.Tactic

/-! A bus of two wires with open drains: a line is high when nobody pulls it down. The master drives
    the clock; the data line is his and the slave's. While the clock is high a change of the data
    line is a condition, otherwise what it carried is a bit when the clock falls.

        SCL  ▔▔▔▔\\____/▔▔▔\\____/▔▔▔\\__ … __/▔▔▔▔
        SDA  ▔▔\\______/▔▔▔▔▔\\______________/▔▔
             start     bit 1     bit 0        stop

    A slave sees conditions and bits. It changes its side of the data line when the clock has
    fallen, so it has released the line at every condition. -/

namespace TwoWire

inductive Symbol where
  | start
  | stop
  | bit (b : Bool)

/-- A slave, with the side of the data line that it pulls: true is released. -/
structure Slave (σ : Type*) where
  next : σ → Symbol → σ
  release : σ → Bool
  release_start : ∀ s, release (next s .start) = true
  release_stop : ∀ s, release (next s .stop) = true

/-- The lines as the master drives them; `cond` when there was a condition since the clock rose. -/
structure Pair (σ : Type*) where
  scl : Bool
  latch : Bool
  out : Bool
  cond : Bool
  slave : σ

variable {σ : Type*} (S : Slave σ)

namespace Pair

/-- The level of the data line. -/
def sda (w : Pair σ) : Bool := (!w.out || w.latch) && S.release w.slave

def setScl (v : Bool) (w : Pair σ) : Pair σ :=
  if w.scl = v then w
  else if v then { w with scl := true, cond := false }
  else if w.cond then { w with scl := false }
  else { w with scl := false, slave := S.next w.slave (.bit (w.sda S)) }

/-- The master changes his side of the data line. -/
def drive (latch out : Bool) (w : Pair σ) : Pair σ :=
  let w' := { w with latch := latch, out := out }
  if w.scl then
    match w.sda S, w'.sda S with
    | true, false => { w' with cond := true, slave := S.next w.slave .start }
    | false, true => { w' with cond := true, slave := S.next w.slave .stop }
    | _, _ => w'
  else w'

def setSda (v : Bool) (w : Pair σ) : Pair σ := w.drive S v w.out
def sdaIn (w : Pair σ) : Pair σ := w.drive S w.latch false
def sdaOut (w : Pair σ) : Pair σ := w.drive S w.latch true

/-- The clock is low and the slave is `s`. -/
structure Low (s : σ) (w : Pair σ) : Prop where
  scl : w.scl = false
  slave : w.slave = s

/-- The bus is free: both lines are high since the last stop, and the slave leaves them so. -/
structure Free (s : σ) (w : Pair σ) : Prop where
  scl : w.scl = true
  latch : w.latch = true
  cond : w.cond = true
  slave : w.slave = s

variable {S} {s : σ} {w : Pair σ}

theorem Low.drive (h : Low s w) (latch out : Bool) :
    w.drive S latch out = { w with latch := latch, out := out } := by
  rw [Pair.drive, h.scl]
  rfl

theorem Low.low (h : Low s w) : w.setScl S false = w := if_pos h.scl

theorem Low.rise (h : Low s w) : w.setScl S true = { w with scl := true, cond := false } := by
  rw [setScl, h.scl]
  rfl

/-- A clock, which takes over what is on the data line. -/
theorem Low.clock (h : Low s w) : (w.setScl S true).setScl S false =
    { w with scl := false, cond := false, slave := S.next s (.bit (w.sda S)) } := by
  rw [h.rise, setScl, h.slave.symm]
  rfl

theorem Low.sda (h : Low s w) (hout : w.out = true) : w.sda S = (w.latch && S.release s) := by
  rw [Pair.sda, hout, h.slave]
  rfl

theorem Low.sda_in (h : Low s w) (hout : w.out = false) : w.sda S = S.release s := by
  rw [Pair.sda, hout, h.slave]
  rfl

end Pair

/-- The bits that the slave sends, and the slave behind them. -/
def received : ℕ → σ → List Bool × σ
  | 0, s => ([], s)
  | n + 1, s =>
      let r := received n (S.next s (.bit (S.release s)))
      (S.release s :: r.1, r.2)

/-- The slave behind bits that the master sends. -/
def taken (s : σ) : List Bool → σ
  | [] => s
  | b :: bits => taken (S.next s (.bit (b && S.release s))) bits

end TwoWire
