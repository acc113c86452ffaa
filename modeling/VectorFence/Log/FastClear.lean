import VectorFence.Areas
import VectorFence.Log.Accesses

/-! What `FastClearLog` leaves behind. The log it is called for is empty, whatever it held; nothing
    else in the EEPROM changes:

        ring of 300 / part of a ring / empty ──▶ 300 first bytes 0xFF, pointer at the base
        the other rings and pointers, the parameters ──▶ unchanged -/

namespace VectorFence

namespace Log

open Eeprom

/-- The turns of `FastEraseLogEEProm` in `FastClearLog`, at most `fuel`. -/
def clearTurns (m : Eeprom) (s : Log) (t : LogType) (fuel : ℕ) : List ℕ :=
  let m := eraseEEProm m (logNextWAddr t) 2
  let b := at24cxxReadOneByte m (s.nextWriteAddrVal t)
  eraseAddrs fuel (eachTypeLogBasedAddr t) (eraseLen t (s.nextWriteAddrVal t) b)

/-- The log `t` of `ms` is empty in `ms'`, and everything else is as it was. -/
structure Cleared (t : LogType) (ms ms' : Eeprom × Log) : Prop where
  empty : (readFirstLog ms'.1 t ms'.2).2 = blankEntry
  notFull : isLogFull ms'.1 t = false
  startsRing : ∀ (time : TimeStr) (flag : UInt8),
    WellFormed (writeLog ms'.1 ms'.2 t time.bytes flag).1 (writeLog ms'.1 ms'.2 t time.bytes flag).2 t 1
      [time.entry flag]
  erased : ∀ k < 300, ms'.1 (slotAddr t k) = 0xFF
  otherLogs : ∀ u ≠ t, ∀ w es, WellFormed ms.1 ms.2 u w es → WellFormed ms'.1 ms'.2 u w es
  otherAreas : ∀ a : Area, a ≠ .pointer t → (∀ k, a ≠ .entry t k) → a.read ms'.1 = a.read ms.1

section FastClear

variable {m : Eeprom} {s : Log} {t : LogType} {x : ℕ}

/-- A length of whole slots is counted down to zero, one slot a turn. -/
theorem length_eraseAddrs (n fuel a : ℕ) (hn : eachLogSize * n < 0x10000) :
    (eraseAddrs fuel a (eachLogSize * n)).length ≤ n := by
  rw [eachLogSize] at hn
  induction n generalizing fuel a with
  | zero => cases fuel <;> simp [eraseAddrs]
  | succ n ih =>
    cases fuel with
    | zero => simp [eraseAddrs]
    | succ fuel =>
      have hlen : (eachLogSize * (n + 1) + 0x10000 - eachLogSize) % 0x10000 = eachLogSize * n := by
        rw [eachLogSize]
        omega
      rw [eraseAddrs, if_neg (by rw [eachLogSize]; omega), hlen, List.length_cons]
      exact Nat.succ_le_succ (ih _ _ (by omega))

theorem length_clearTurns {w : ℕ} (hw : w < 300) (hnext : s.nextWriteAddrVal t = slotAddr t w)
    (fuel : ℕ) :
    (clearTurns m s t fuel).length ≤ 300 := by
  rw [clearTurns, hnext, eraseLen_slotAddr hw]
  refine (length_eraseAddrs _ _ _ ?_).trans ?_
  · rw [eachLogSize]
    split_ifs <;> omega
  · split_ifs <;> omega

/-- What belongs to another log or to the parameters is not written to. -/
theorem owner_of_written (h : PointersOk m s) (hx : Written (clearAccesses m s t) x) :
    Area.owner x = some (.pointer t) ∨ ∃ k, Area.owner x = some (.entry t k) := by
  obtain ⟨addr, len, hmem, h0, h1⟩ := hx
  rcases clear_own h t _ hmem with hring | hpointer
  · right
    rw [InBlock, eachTypeLogBlockSize, eachTypeLogTotal, eachLogSize, base_eq] at hring
    have hk : (x - (256 + 6000 * t)) / 20 < 300 := by omega
    refine ⟨⟨_, hk⟩, Area.owner_eq ?_ ?_⟩
    · simp only [Area.start, slotAddr_eq]
      omega
    · simp only [Area.start, Area.len, slotAddr_eq, eachLogSize]
      omega
  · exact Or.inl (Area.owner_eq (h0.trans' hpointer.1) (h1.trans_le hpointer.2))

theorem fastClearLog_owned (h : PointersOk m s) {a : Area} (hp : a ≠ .pointer t)
    (he : ∀ k, a ≠ .entry t k)
    (hx : Area.owner x = some a) : (fastClearLog m s t).1 x = m x := by
  refine clear_unwritten h fun hw => ?_
  rcases owner_of_written h hw with hp' | ⟨k, he'⟩
  · exact hp (Option.some.inj (hx.symm.trans hp'))
  · exact he k (Option.some.inj (hx.symm.trans he'))

theorem sameRing_fastClearLog (h : PointersOk m s) {u : LogType} (hut : u ≠ t) :
    SameRing u m (fastClearLog m s t).1 := by
  intro x h0 h1
  rw [slotAddr_eq] at h0 h1
  have hk : (x - (256 + 6000 * u)) / 20 < 300 := by omega
  refine fastClearLog_owned (a := .entry u ⟨_, hk⟩) h (by simp) (by simp [hut]) (Area.owner_eq ?_ ?_)
  · simp only [Area.start, slotAddr_eq]
    omega
  · simp only [Area.start, Area.len, slotAddr_eq, eachLogSize]
    omega

theorem pointer_fastClearLog (h : PointersOk m s) {u : LogType} (hut : u ≠ t) :
    at24cxxReadLenByte (fastClearLog m s t).1 (logNextWAddr u) 2 = at24cxxReadLenByte m
    (logNextWAddr u) 2 := by
  have hu := logNextWAddr_eq u
  have hult := u.isLt
  have hbyte {y : ℕ} (h0 : logNextWAddr u ≤ y) (h1 : y < logNextWAddr u + 2) :
      (fastClearLog m s t).1 y = m y :=
    fastClearLog_owned (a := .pointer u) h (by simp [hut]) (by simp) (Area.owner_eq h0 h1)
  have hlow := hbyte le_rfl (by omega)
  have hhigh := hbyte (y := logNextWAddr u + 1) (by omega) (by omega)
  generalize (fastClearLog m s t).1 = m' at hlow hhigh
  rw [readLenByte_two, readLenByte_two, readOneByte_eq _ (by omega), readOneByte_eq _ (by omega),
    readOneByte_eq _ (by omega), readOneByte_eq _ (by omega), hlow, hhigh]

/-- The history of another log is as it was. -/
theorem WellFormed.fastClearLog_ne {u : LogType} (hut : u ≠ t) (h : PointersOk m s) {w : ℕ}
    {es : List Entry}
    (hu : WellFormed m s u w es) :
    WellFormed (Log.fastClearLog m s t).1 (Log.fastClearLog m s t).2 u w es := by
  have hpointer := pointer_fastClearLog h hut
  refine { toStored := hu.toStored.congr (sameRing_fastClearLog h hut) hpointer, next := ?_ }
  obtain ⟨v, -, hnext, hstored⟩ := (h.fastClearLog t).1 u
  rw [hnext, ← hstored, hpointer, hu.stored]

theorem readFirstLog_nil {es : List Entry} (h : WellFormed m s t 0 es) (hes : es = []) :
    (readFirstLog m t s).2 = blankEntry := by
  have hfull : isLogFull m t = false := by
    rw [Bool.eq_false_iff, Ne, h.isLogFull, hes]
    simp
  have hnext : nextReadAddr m t (s.setReadAddr t (s.nextWriteAddrVal t)) = none := by
    rw [nextReadAddr, setReadAddr_read, h.next, slotAddr_zero, if_pos rfl, hfull]
    rfl
  rw [readFirstLog, readNextLog, hnext]

/-- Clearing a log ends after 300 turns of its loop at most, empties the log and leaves everything else
    alone, whatever histories the logs hold. -/
theorem fastClearLog_cleared (h : ∀ t, ∃ w es, WellFormed m s t w es) (t : LogType) :
    (∀ fuel, (clearTurns m s t fuel).length ≤ 300) ∧ Cleared t (m, s) (fastClearLog m s t) := by
  have hp := pointersOk_of_wellFormed h
  obtain ⟨w, es, hw⟩ := h t
  have hclear := hw.fastClearLog
  refine ⟨length_clearTurns hw.lt hw.next, ?_⟩
  constructor
  · exact readFirstLog_nil hclear rfl
  · rw [Bool.eq_false_iff, Ne, hclear.isLogFull]
    simp
  · intro time flag
    exact hclear.writeLog time flag
  · intro k hk
    exact hclear.fresh (by simp) k (Nat.zero_le k) hk
  · intro u hut w es hu
    exact hu.fastClearLog_ne hut hp
  · intro a hp' he
    exact Area.read_owner fun x hx => fastClearLog_owned hp hp' he hx

/-- On a new device. -/
theorem fastClearLog_cleared_new :
    (∀ fuel, (clearTurns (logInit newEeprom powerOn).1 (logInit newEeprom powerOn).2 .FC fuel).length
    ≤ 300) ∧
      Cleared .FC (logInit newEeprom powerOn)
        (fastClearLog (logInit newEeprom powerOn).1 (logInit newEeprom powerOn).2 .FC) :=
  fastClearLog_cleared (fun t => ⟨0, [], (erased_newEeprom t).logInit powerOn⟩) .FC

end FastClear

end Log

end VectorFence
