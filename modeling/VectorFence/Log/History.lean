import VectorFence.Lib.Ring
import VectorFence.Log.Basic

/-! What the EEPROM ring of one log type stands for: the history of the last 300 entries, newest
    first. `WellFormed m s t w es` says that the ring of `t` holds `es` with `w` the next slot, that
    the RAM pointer and the stored pointer agree, and that the slots of a ring never full are still
    erased from `w` on, which is what `isLogFull` looks at.

    `writeLog` refines `Ring.push` and `logInit` changes nothing (a restart is invisible), so every
    run of writes and restarts from an erased log keeps the invariant. -/

namespace VectorFence

/-- A stored entry: 20 bytes, the first neither NUL nor the erased value. -/
structure Entry where
  bytes : List UInt8
  size : bytes.length = 20
  shown : bytes.headD 0 ≠ 0
  written : bytes.headD 0 ≠ 0xFF

/-- A time string `rtcTempStr` as the clock module leaves it. -/
structure TimeStr where
  bytes : List UInt8
  size : bytes.length = 19
  shown : bytes.headD 0 ≠ 0
  written : bytes.headD 0 ≠ 0xFF

/-- `2018-03-31 16:27:00`. -/
def TimeStr.sample : TimeStr where
  bytes := [50, 48, 49, 56, 45, 48, 51, 45, 51, 49, 32, 49, 54, 58, 50, 55, 58, 48, 48]
  size := rfl
  shown := by decide
  written := by decide

/-- The entry `WriteLog` stores for a time string and an alarm flag. -/
def TimeStr.entry (time : TimeStr) (alarmFlag : UInt8) : Entry where
  bytes := time.bytes ++ [alarmFlag]
  size := by rw [List.length_append, time.size]; rfl
  shown := by
    have h := time.shown; have hs := time.size
    cases hb : time.bytes with
    | nil => rw [hb] at hs; simp at hs
    | cons b bs => rw [hb] at h; simpa using h
  written := by
    have h := time.written; have hs := time.size
    cases hb : time.bytes with
    | nil => rw [hb] at hs; simp at hs
    | cons b bs => rw [hb] at h; simpa using h

namespace Log

open Eeprom

/-- Address of slot `k` of a ring. -/
def slotAddr (t : LogType) (k : ℕ) : ℕ := eachTypeLogBasedAddr t + eachLogSize * k

/-- The 20 bytes stored in slot `k`. -/
def slotBytes (m : Eeprom) (t : LogType) (k : ℕ) : List UInt8 :=
  at24cxxRead m (slotAddr t k) eachLogSize

/-- The EEPROM stores the history `es`, with `w` the next slot. -/
structure Stored (m : Eeprom) (t : LogType) (w : ℕ) (es : List Entry) : Prop where
  holds : Ring.Holds 300 (slotBytes m t) w (es.map Entry.bytes)
  stored : at24cxxReadLenByte m (logNextWAddr t) 2 = slotAddr t w
  fresh : es.length < 300 → ∀ k, w ≤ k → k < 300 → m (slotAddr t k) = 0xFF

/-- The EEPROM stores the history and the RAM pointer agrees with it. -/
structure WellFormed (m : Eeprom) (s : Log) (t : LogType) (w : ℕ) (es : List Entry) : Prop
    extends Stored m t w es where
  next : s.nextWriteAddrVal t = slotAddr t w

/-- An erased log: no pointer and the first byte of every slot erased. -/
structure Erased (m : Eeprom) (t : LogType) : Prop where
  pointer : at24cxxReadLenByte m (logNextWAddr t) 2 = 0xffff
  slots : ∀ k, k < 300 → m (slotAddr t k) = 0xFF

/-- A new EEPROM. -/
def newEeprom : Eeprom := fun _ => 0xFF

/-! ### Addresses -/

theorem base_eq (t : LogType) : eachTypeLogBasedAddr t = 256 + 6000 * t := by
  simp only [eachTypeLogBasedAddr, logDataBasedAddr, eachTypeLogBlockSize, eachTypeLogTotal,
    eachLogSize]

theorem slotAddr_eq (t : LogType) (k : ℕ) : slotAddr t k = 256 + 6000 * t + 20 * k := by
  rw [slotAddr, base_eq, eachLogSize]

theorem logNextWAddr_eq (t : LogType) : logNextWAddr t = 224 + 2 * t := by
  rw [logNextWAddr, logBlockStartAddr]; omega

theorem max_eq (t : LogType) : eachTypeLogMaxAddr t = 256 + 6000 * t + 5980 := by
  simp only [eachTypeLogMaxAddr, base_eq, eachTypeLogBlockSize, eachTypeLogTotal, eachLogSize]
  omega

theorem slotAddr_zero (t : LogType) : slotAddr t 0 = eachTypeLogBasedAddr t := by
  rw [slotAddr_eq, base_eq, Nat.mul_zero, Nat.add_zero]

theorem slotAddr_last (t : LogType) : slotAddr t 299 = eachTypeLogMaxAddr t := by
  rw [slotAddr_eq, max_eq]

theorem slotAddr_lt (t : LogType) {k : ℕ} (hk : k ≤ 300) : slotAddr t k < 0x7700 := by
  rw [slotAddr_eq]; omega

theorem slotAddr_inj {t : LogType} {j k : ℕ} : slotAddr t j = slotAddr t k ↔ j = k := by
  rw [slotAddr_eq, slotAddr_eq]; omega

/-- The slot after `w` is where `WriteLog` moves its pointer. -/
theorem advance_slotAddr (t : LogType) {w : ℕ} (hw : w < 300) :
    advance t (slotAddr t w) = slotAddr t (Ring.succ 300 w) := by
  have hu : u32 (slotAddr t w + eachLogSize) = slotAddr t (w + 1) := by
    refine u32_eq ?_ (by have := slotAddr_lt t (k := w + 1) (by omega); omega)
    simp only [slotAddr_eq, eachLogSize]; push_cast; ring
  simp only [advance, hu, max_eq, Ring.succ]
  by_cases h : w + 1 = 300
  · rw [if_pos h, if_pos (by rw [slotAddr_eq]; omega), slotAddr_zero]
  · rw [if_neg h, if_neg (by rw [slotAddr_eq]; omega)]

theorem erased_newEeprom (t : LogType) : Erased newEeprom t := by
  refine ⟨?_, fun _ _ => rfl⟩
  have hbyte (a : ℕ) : (at24cxxReadOneByte newEeprom a).toNat = 255 := rfl
  rw [readLenByte_two, hbyte, hbyte]

/-! ### What a log state depends on -/

section Congr

variable {m m' : Eeprom} {s s' : Log} {t : LogType} {w : ℕ} {es : List Entry}

/-- Two memories agree on the ring of `t`. -/
def SameRing (t : LogType) (m m' : Eeprom) : Prop :=
  ∀ x, slotAddr t 0 ≤ x → x < slotAddr t 300 → m' x = m x

theorem SameRing.slotBytes (h : SameRing t m m') {k : ℕ} (hk : k < 300) :
    slotBytes m' t k = slotBytes m t k := by
  have hlt := slotAddr_lt t (k := k + 1) (by omega)
  rw [slotAddr_eq] at hlt
  refine read_congr _ _ (by rw [slotAddr_eq, eachLogSize]; omega) fun x h0 h1 => h x ?_ ?_
  · rw [slotAddr_eq] at h0 ⊢; omega
  · rw [slotAddr_eq] at h1 ⊢; rw [eachLogSize] at h1; omega

theorem SameRing.slot (h : SameRing t m m') {k : ℕ} (hk : k < 300) :
    m' (slotAddr t k) = m (slotAddr t k) :=
  h _ (by rw [slotAddr_eq, slotAddr_eq]; omega) (by rw [slotAddr_eq, slotAddr_eq]; omega)

theorem Stored.congr (h : Stored m t w es) (hr : SameRing t m m')
    (hp : at24cxxReadLenByte m' (logNextWAddr t) 2 = at24cxxReadLenByte m (logNextWAddr t) 2) :
    Stored m' t w es := by
  refine ⟨h.holds.congr fun a ha => ?_, hp.trans h.stored, fun hl k h0 h1 => ?_⟩
  · exact hr.slotBytes (Ring.back_lt h.holds.lt (by have := h.holds.le; omega))
  · rw [hr.slot h1]; exact h.fresh hl k h0 h1

theorem Stored.lt (h : Stored m t w es) : w < 300 := h.holds.lt

theorem Stored.length_le (h : Stored m t w es) : es.length ≤ 300 := by
  simpa using h.holds.le

theorem Stored.length (h : Stored m t w es) : es.length = w ∨ es.length = 300 := by
  simpa using h.holds.len

/-- The slot `a + 1` steps behind the pointer stores the entry written `a` entries ago. -/
theorem Stored.get (h : Stored m t w es) {a : ℕ} (ha : a < es.length) :
    Log.slotBytes m t (Ring.back 300 w (a + 1)) = es[a].bytes := by
  rw [h.holds.get a (by simpa using ha), List.getElem_map]

theorem slotBytes_headD (m : Eeprom) (t : LogType) {k : ℕ} (hk : k < 300) :
    (slotBytes m t k).headD 0 = m (slotAddr t k) := by
  have := slotAddr_lt t (k := k) (by omega)
  simp only [Log.slotBytes, eachLogSize, at24cxxRead, List.headD_cons]
  exact readOneByte_eq m (by omega)

/-- The first byte of the slot that stores an entry. -/
theorem Stored.head (h : Stored m t w es) {a : ℕ} (ha : a < es.length) :
    m (slotAddr t (Ring.back 300 w (a + 1))) = es[a].bytes.headD 0 := by
  have hb : Ring.back 300 w (a + 1) < 300 :=
    Ring.back_lt h.lt (by have := h.length_le; omega)
  rw [← slotBytes_headD m t hb, h.get ha]

/-- `isLogFull` decides whether the ring has ever been full. -/
theorem Stored.isLogFull (h : Stored m t w es) :
    isLogFull m t = decide (es.length = 300) := by
  have hm : at24cxxReadOneByte m (eachTypeLogMaxAddr t) = m (slotAddr t 299) :=
    readOneByte_eq m (by have := slotAddr_lt t (k := 299) (by omega); rw [slotAddr_last] at this; omega)
  rw [Log.isLogFull, hm]
  have hlt := h.lt
  by_cases hl : es.length = 300
  · obtain ⟨a, ha, hb⟩ := Ring.exists_back hlt (k := 299) (by omega)
    have hne := es[a].written
    rw [← h.head (by omega), hb] at hne
    simp [hl, hne]
  · have hfresh := h.fresh (by have := h.length_le; omega) 299 (by omega)
      (by omega)
    simp [hl, hfresh]

end Congr

/-! ### Writing -/

section Write

variable {m : Eeprom} {s : Log} {t : LogType} {w : ℕ} {es : List Entry}

/-- A two-byte number stored and read back. -/
theorem readLenByte_writeLenByte (m : Eeprom) {a v : ℕ} (hv : v < 0x10000) :
    at24cxxReadLenByte (at24cxxWriteLenByte m a v 2) a 2 = v := by
  rw [readLenByte_two, writeLenByte_two]
  simp only [readOneByte_writeOneByte, if_true]
  rw [if_neg (by omega), UInt8.toNat_ofNat', UInt8.toNat_ofNat']
  omega

/-- Storing a pointer leaves every other byte alone. -/
theorem writeLenByte_two_apply (m : Eeprom) {a : ℕ} (ha : a + 1 < 0x10000) (v : ℕ) {x : ℕ}
    (h0 : x ≠ a) (h1 : x ≠ a + 1) : at24cxxWriteLenByte m a v 2 x = m x := by
  rw [writeLenByte_two, writeOneByte_apply _ (by omega), if_neg h1, writeOneByte_apply _ (by omega),
    if_neg h0]

theorem sameRing_writePointer (m : Eeprom) (t u : LogType) (v : ℕ) :
    SameRing t m (at24cxxWriteLenByte m (logNextWAddr u) v 2) := by
  intro x h0 _
  have hu := logNextWAddr_eq u
  rw [slotAddr_eq] at h0
  exact writeLenByte_two_apply m (by omega) v (by omega) (by omega)

/-- A buffer of at most one entry written at slot `w` changes only that slot. -/
theorem write_slot_frame (m : Eeprom) (t : LogType) {w : ℕ} (hw : w < 300) {buf : List UInt8}
    (hb : buf.length ≤ 20) {x : ℕ} (hx : x < slotAddr t w ∨ slotAddr t (w + 1) ≤ x) :
    at24cxxWrite m (slotAddr t w) buf x = m x := by
  have hlt := slotAddr_lt t (k := w + 1) (by omega)
  rw [slotAddr_eq] at hlt
  rw [slotAddr_eq, slotAddr_eq] at hx
  rw [write_apply buf m _ (by rw [slotAddr_eq]; omega), if_neg (by rw [slotAddr_eq]; omega)]

theorem slotBytes_write_other (m : Eeprom) (t : LogType) {w k : ℕ} (hw : w < 300) (hk : k < 300)
    (hne : k ≠ w) {buf : List UInt8} (hb : buf.length ≤ 20) :
    slotBytes (at24cxxWrite m (slotAddr t w) buf) t k = slotBytes m t k := by
  have hlt := slotAddr_lt t (k := k + 1) (by omega)
  rw [slotAddr_eq] at hlt
  refine read_congr _ _ (by rw [slotAddr_eq, eachLogSize]; omega) fun x h0 h1 => ?_
  rw [slotAddr_eq, eachLogSize] at h1
  rw [slotAddr_eq] at h0
  exact write_slot_frame m t hw hb (by rw [slotAddr_eq, slotAddr_eq]; omega)

theorem slotBytes_write_self (m : Eeprom) (t : LogType) {w : ℕ} (hw : w < 300) {buf : List UInt8}
    (hb : buf.length = 20) : slotBytes (at24cxxWrite m (slotAddr t w) buf) t w = buf := by
  have hlt := slotAddr_lt t (k := w + 1) (by omega)
  rw [slotAddr_eq] at hlt
  have := read_write m buf (slotAddr t w) (by rw [slotAddr_eq]; omega)
  rwa [hb] at this

theorem writeLog_mem (h : WellFormed m s t w es) (time : List UInt8) (flag : UInt8) :
    (Log.writeLog m s t time flag).1 =
      at24cxxWriteLenByte (at24cxxWrite m (slotAddr t w) (time ++ [flag])) (logNextWAddr t)
        (slotAddr t (Ring.succ 300 w)) 2 := by
  simp only [Log.writeLog, h.next, advance_slotAddr t h.lt]

theorem writeLog_next (h : WellFormed m s t w es) (time : List UInt8) (flag : UInt8) :
    (Log.writeLog m s t time flag).2.nextWriteAddrVal t = slotAddr t (Ring.succ 300 w) := by
  simp only [Log.writeLog, setNextWriteAddr, Function.update_self, h.next, advance_slotAddr t h.lt]

/-- `writeLog` appends to the history. -/
theorem WellFormed.writeLog (h : WellFormed m s t w es) (time : TimeStr) (flag : UInt8) :
    WellFormed (Log.writeLog m s t time.bytes flag).1 (Log.writeLog m s t time.bytes flag).2 t
      (Ring.succ 300 w) (Ring.push 300 (time.entry flag) es) := by
  have hw := h.lt
  have hsz : (time.bytes ++ [flag]).length = 20 := (time.entry flag).size
  have hring := sameRing_writePointer (at24cxxWrite m (slotAddr t w) (time.bytes ++ [flag])) t t
    (slotAddr t (Ring.succ 300 w))
  rw [← writeLog_mem h] at hring
  refine ⟨⟨?_, ?_, ?_⟩, writeLog_next h _ _⟩
  · have hpush : (Ring.push 300 (time.entry flag) es).map Entry.bytes =
        Ring.push 300 (time.bytes ++ [flag]) (es.map Entry.bytes) := by
      simp only [Ring.push, List.map_take, List.map_cons, TimeStr.entry]
    rw [hpush]
    refine h.holds.push ?_ fun k hk hne => ?_
    · rw [hring.slotBytes hw, slotBytes_write_self m t hw hsz]
    · rw [hring.slotBytes hk, slotBytes_write_other m t hw hk hne hsz.le]
  · rw [writeLog_mem h]
    have := slotAddr_lt t (k := Ring.succ 300 w) (Ring.succ_lt hw).le
    exact readLenByte_writeLenByte _ (by omega)
  · intro hl k h0 h1
    rw [Ring.length_push] at hl
    have hes : es.length = w := by have := h.length; omega
    have hk : w + 1 ≤ k := by rw [Ring.succ] at h0; split_ifs at h0 <;> omega
    have hfar : slotAddr t k < slotAddr t w ∨ slotAddr t (w + 1) ≤ slotAddr t k := by
      simp only [slotAddr_eq]; omega
    rw [hring.slot h1, write_slot_frame m t hw hsz.le hfar]
    exact h.fresh (by omega) k (by omega) h1

end Write

/-! ### A full ring -/

section Full

/-- An entry of 20 characters `1`. -/
def Entry.ones : Entry where
  bytes := List.replicate 20 49
  size := List.length_replicate ..
  shown := by decide
  written := by decide

/-- A memory with the ring of `t` full, slot `w` being the next one, and zeros around it. -/
def fullMem (t : LogType) (w : ℕ) : Eeprom :=
  at24cxxWriteLenByte (fun x => if slotAddr t 0 ≤ x ∧ x < slotAddr t 300 then 49 else 0)
    (logNextWAddr t) (slotAddr t w) 2

/-- The variables after a start on `fullMem t w`, as far as `t` goes. -/
def fullLog (t : LogType) (w : ℕ) : Log := powerOn.setNextWriteAddr t (slotAddr t w)

variable {t : LogType} {w : ℕ}

theorem fullMem_ring {x : ℕ} (h0 : slotAddr t 0 ≤ x) (h1 : x < slotAddr t 300) :
    fullMem t w x = 49 := by
  rw [fullMem, sameRing_writePointer _ t t _ x h0 h1, if_pos ⟨h0, h1⟩]

/-- Outside the ring and its pointer the memory is zero. -/
theorem fullMem_zero {x : ℕ} (h0 : x < slotAddr t 0 ∨ slotAddr t 300 ≤ x)
    (h1 : x ≠ logNextWAddr t) (h2 : x ≠ logNextWAddr t + 1) : fullMem t w x = 0 := by
  have hp := logNextWAddr_eq t
  rw [fullMem, writeLenByte_two_apply _ (by omega) _ h1 h2, if_neg (by omega)]

theorem wellFormed_full (hw : w < 300) :
    WellFormed (fullMem t w) (fullLog t w) t w (List.replicate 300 Entry.ones) := by
  have hlen : ((List.replicate 300 Entry.ones).map Entry.bytes).length = 300 := by
    rw [List.length_map, List.length_replicate]
  refine ⟨⟨⟨hw, Or.inr hlen, fun a ha => ?_⟩, ?_, fun h => ?_⟩, Function.update_self ..⟩
  · have hk := Ring.back_lt hw (a := a + 1) (by omega)
    have hlt := slotAddr_lt t (k := Ring.back 300 w (a + 1) + 1) (by omega)
    rw [slotAddr_eq] at hlt
    rw [List.getElem_map, List.getElem_replicate]
    show at24cxxRead (fullMem t w) (slotAddr t (Ring.back 300 w (a + 1))) 20 = List.replicate 20 49
    refine List.eq_replicate_iff.mpr ⟨length_read .., fun b hb => ?_⟩
    obtain ⟨i, hi, rfl⟩ := List.mem_iff_getElem.mp hb
    rw [length_read] at hi
    rw [getElem_read _ _ _ _ (by rw [length_read]; exact hi) (by rw [slotAddr_eq]; omega),
      fullMem_ring (by simp only [slotAddr_eq]; omega) (by simp only [slotAddr_eq]; omega)]
  · have := slotAddr_lt t hw.le
    exact readLenByte_writeLenByte _ (by omega)
  · rw [List.length_replicate] at h
    exact absurd h (lt_irrefl 300)

end Full

/-! ### Restarting -/

section Restart

variable {m : Eeprom} {s : Log} {t : LogType} {w : ℕ} {es : List Entry}

/-- The pointer of one type is not touched by another type's turn of the loop. -/
theorem readPointer_writePointer_ne (m : Eeprom) {t u : LogType} (h : u ≠ t) (v : ℕ) :
    at24cxxReadLenByte (at24cxxWriteLenByte m (logNextWAddr u) v 2) (logNextWAddr t) 2 =
      at24cxxReadLenByte m (logNextWAddr t) 2 := by
  have hu := logNextWAddr_eq u
  have ht := logNextWAddr_eq t
  have hne : (u : ℕ) ≠ t := fun he => h (Fin.ext he)
  rw [readLenByte_two, readLenByte_two, readOneByte_eq _ (by omega), readOneByte_eq _ (by omega),
    readOneByte_eq _ (by omega), readOneByte_eq _ (by omega),
    writeLenByte_two_apply m (by omega) v (by omega) (by omega),
    writeLenByte_two_apply m (by omega) v (by omega) (by omega)]

/-- The pointer `Log_Init` settles on for a stored one. -/
def bootPointer (t : LogType) (stored : ℕ) : ℕ :=
  if stored = 0xffff then eachTypeLogBasedAddr t else stored

theorem bootPointer_ne (t : LogType) (p : ℕ) : bootPointer t p ≠ 0xffff := by
  rw [bootPointer]
  split_ifs with h
  · rw [base_eq]; omega
  · exact h

theorem bootPointer_of_ne {p : ℕ} (h : p ≠ 0xffff) : bootPointer t p = p := if_neg h

theorem SameRing.trans {m m' m'' : Eeprom} (h : SameRing t m m') (h' : SameRing t m' m'') :
    SameRing t m m'' := fun x h0 h1 => (h' x h0 h1).trans (h x h0 h1)

/-- Other types' turns of `Log_Init` leave the ring, the stored and the RAM pointer of `t` alone. -/
theorem logInitType_ne (ms : Eeprom × Log) {t u : LogType} (h : u ≠ t) :
    SameRing t ms.1 (logInitType ms u).1 ∧
    at24cxxReadLenByte (logInitType ms u).1 (logNextWAddr t) 2 =
      at24cxxReadLenByte ms.1 (logNextWAddr t) 2 ∧
    (logInitType ms u).2.nextWriteAddrVal t = ms.2.nextWriteAddrVal t := by
  have hnext (s : Log) (a : ℕ) : (s.setNextWriteAddr u a).nextWriteAddrVal t = s.nextWriteAddrVal t :=
    Function.update_of_ne (Ne.symm h) ..
  simp only [logInitType]
  split_ifs with hf
  · exact ⟨sameRing_writePointer _ _ _ _, readPointer_writePointer_ne _ h _, hnext _ _⟩
  · exact ⟨fun _ _ _ => rfl, rfl, hnext _ _⟩

/-- The turn of `t` itself settles on the boot pointer. -/
theorem logInitType_self (ms : Eeprom × Log) {p : ℕ}
    (hp : at24cxxReadLenByte ms.1 (logNextWAddr t) 2 = p) :
    SameRing t ms.1 (logInitType ms t).1 ∧
    at24cxxReadLenByte (logInitType ms t).1 (logNextWAddr t) 2 = bootPointer t p ∧
    (logInitType ms t).2.nextWriteAddrVal t = bootPointer t p := by
  have hbase := slotAddr_lt t (k := 0) (by omega)
  rw [slotAddr_zero] at hbase
  simp only [logInitType, hp, bootPointer]
  split_ifs with hf
  · exact ⟨sameRing_writePointer _ _ _ _, readLenByte_writeLenByte _ (by omega),
      Function.update_self ..⟩
  · exact ⟨fun _ _ _ => rfl, hp, Function.update_self ..⟩

/-- The loop of `Log_Init` over any types, as far as `t` is concerned. -/
theorem logInit_fold (l : List LogType) : ∀ (ms : Eeprom × Log) (p : ℕ),
    at24cxxReadLenByte ms.1 (logNextWAddr t) 2 = p →
    SameRing t ms.1 (l.foldl logInitType ms).1 ∧
    (at24cxxReadLenByte (l.foldl logInitType ms).1 (logNextWAddr t) 2 =
      if t ∈ l then bootPointer t p else p) ∧
    ((l.foldl logInitType ms).2.nextWriteAddrVal t =
      if t ∈ l then bootPointer t p else ms.2.nextWriteAddrVal t) := by
  induction l with
  | nil => exact fun ms p hp => ⟨fun _ _ _ => rfl, hp, rfl⟩
  | cons u l ih =>
    intro ms p hp
    rw [List.foldl_cons]
    rcases eq_or_ne u t with rfl | hu
    · obtain ⟨hr, hq, hn⟩ := logInitType_self ms hp
      obtain ⟨hr', hq', hn'⟩ := ih _ _ hq
      rw [bootPointer_of_ne (bootPointer_ne u p)] at hq' hn'
      refine ⟨hr.trans hr', ?_, ?_⟩
      · rw [hq', if_pos (List.mem_cons_self ..), ite_self]
      · rw [hn', hn, if_pos (List.mem_cons_self ..), ite_self]
    · obtain ⟨hr, hq, hn⟩ := logInitType_ne ms hu
      obtain ⟨hr', hq', hn'⟩ := ih _ _ (hq.trans hp)
      have hmem : t ∈ u :: l ↔ t ∈ l := by
        rw [List.mem_cons]; exact or_iff_right hu.symm
      refine ⟨hr.trans hr', ?_, ?_⟩
      · simp only [hmem, hq']
      · simp only [hmem, hn', hn]

/-- `Log_Init` leaves the ring alone and takes the stored pointer, or the base for a fresh EEPROM. -/
theorem logInit_spec (m : Eeprom) (s : Log) (t : LogType) {p : ℕ}
    (hp : at24cxxReadLenByte m (logNextWAddr t) 2 = p) :
    SameRing t m (Log.logInit m s).1 ∧
    at24cxxReadLenByte (Log.logInit m s).1 (logNextWAddr t) 2 = bootPointer t p ∧
    (Log.logInit m s).2.nextWriteAddrVal t = bootPointer t p := by
  have h := logInit_fold (t := t) (List.finRange 5) (m, s) p hp
  simp only [List.mem_finRange, if_true] at h
  simp only [Log.logInit]
  exact h

/-- A restart finds the history as it was. -/
theorem Stored.logInit (h : Stored m t w es) (s : Log) :
    WellFormed (Log.logInit m s).1 (Log.logInit m s).2 t w es := by
  have hlt := slotAddr_lt t h.lt.le
  obtain ⟨hr, hq, hn⟩ := logInit_spec m s t h.stored
  rw [bootPointer_of_ne (by omega)] at hq hn
  exact { toStored := h.congr hr (hq.trans h.stored.symm), next := hn }

/-- The first start finds the empty history. -/
theorem Erased.logInit (h : Erased m t) (s : Log) :
    WellFormed (Log.logInit m s).1 (Log.logInit m s).2 t 0 [] := by
  obtain ⟨hr, hq, hn⟩ := logInit_spec m s t h.pointer
  rw [show bootPointer t 0xffff = slotAddr t 0 from (if_pos rfl).trans (slotAddr_zero t).symm]
    at hq hn
  refine { toStored := ⟨Ring.holds_nil (by omega), hq, fun _ k _ hk => ?_⟩, next := hn }
  rw [hr.slot hk]
  exact h.slots k hk

end Restart

end Log

end VectorFence
