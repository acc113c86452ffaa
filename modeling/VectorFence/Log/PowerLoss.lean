import VectorFence.Log.Cursor

/-! A power loss inside `WriteLog`. The call makes 22 one-byte writes, the 20 of the entry and then
    the two of the pointer, low byte first:

        e0 e1 … e19 │ lo │ hi
        ── old log ──▶│    │◀── new log

    Cut before `lo` the old pointer stands and only the slot it points to has changed; cut after
    `hi` the entry has been written. Between the two the pointer is the old high byte with the new
    low byte, which is the new pointer if the high byte does not change and otherwise no slot at all. -/

namespace VectorFence

namespace Log

open Eeprom Ring

/-! ### `WriteLog` as a list of byte writes -/

/-- The one-byte writes of a buffer. -/
def bufferWrites : ℕ → List UInt8 → List (ℕ × UInt8)
  | _, [] => []
  | a, b :: buf => (a, b) :: bufferWrites (a + 1) buf

/-- The one-byte writes of `WriteLog`, in order. -/
def writeLogWrites (s : Log) (t : LogType) (rtcTempStr : List UInt8) (alarmFlag : UInt8) :
    List (ℕ × UInt8) :=
  bufferWrites (s.nextWriteAddrVal t) (rtcTempStr ++ [alarmFlag]) ++
    [(logNextWAddr t, UInt8.ofNat (advance t (s.nextWriteAddrVal t))),
      (logNextWAddr t + 1, UInt8.ofNat (advance t (s.nextWriteAddrVal t) / 256))]

/-- The state after a cut behind the first `k` byte writes and a restart. -/
def cutWriteLog (m : Eeprom) (s : Log) (t : LogType) (rtcTempStr : List UInt8) (alarmFlag : UInt8)
    (k : ℕ) : Eeprom × Log :=
  logInit (burn m ((writeLogWrites s t rtcTempStr alarmFlag).take k)) powerOn

section Writes

variable {m : Eeprom} {s : Log} {t : LogType} {w : ℕ} {es : List Entry}

theorem burn_append (m : Eeprom) (l l' : List (ℕ × UInt8)) :
    burn m (l ++ l') = burn (burn m l) l' := List.foldl_append ..

theorem length_bufferWrites : ∀ (buf : List UInt8) (a : ℕ), (bufferWrites a buf).length = buf.length
  | [], _ => rfl
  | b :: buf, a => by rw [bufferWrites, List.length_cons, List.length_cons, length_bufferWrites buf]

theorem burn_bufferWrites : ∀ (buf : List UInt8) (m : Eeprom) (a : ℕ),
    burn m (bufferWrites a buf) = at24cxxWrite m a buf
  | [], _, _ => rfl
  | b :: buf, m, a => by
      rw [at24cxxWrite, ← burn_bufferWrites buf]
      rfl

theorem take_bufferWrites : ∀ (k : ℕ) (buf : List UInt8) (a : ℕ),
    (bufferWrites a buf).take k = bufferWrites a (buf.take k)
  | 0, _, _ => rfl
  | _ + 1, [], _ => rfl
  | k + 1, b :: buf, a => by
      rw [bufferWrites, List.take_succ_cons, List.take_succ_cons, take_bufferWrites k buf]
      rfl

/-- All the byte writes together are the call. -/
theorem burn_writeLogWrites (m : Eeprom) (s : Log) (t : LogType) (time : List UInt8) (flag : UInt8) :
    burn m (writeLogWrites s t time flag) = (writeLog m s t time flag).1 := by
  rw [writeLogWrites, burn_append, burn_bufferWrites]
  exact (writeLenByte_two _ _ _).symm

end Writes

/-! ### Reading back -/

/-- The first `n` entries `ReadFirstLog` and `ReadNextLog` hand out. -/
def readBack (m : Eeprom) (t : LogType) (n : ℕ) (s : Log) : List (List UInt8) :=
  (readRun (readNextLog m t) n (s.setReadAddr t (s.nextWriteAddrVal t))).2

/-- After the restart the pointer is a slot address and the entries `es`, the oldest of a full log
    apart, are read back in order, behind at most one other entry. -/
def Recovered (t : LogType) (es : List Entry) (ms : Eeprom × Log) : Prop :=
  InRing t (ms.2.nextWriteAddrVal t) ∧
  ∃ fresh : List (List UInt8), fresh.length ≤ 1 ∧
    readBack ms.1 t (fresh.length + (es.take 299).length) ms.2 =
      fresh ++ (es.take 299).map Entry.text

section Back

variable {m : Eeprom} {s : Log} {t : LogType} {w : ℕ} {es : List Entry}

/-- One step back from the slot `a` steps behind `w`; passing the base needs a ring that counts as
    full. -/
theorem readNextLog_back (hw : w < 300) {a : ℕ} (ha : a < 300)
    (hbase : back 300 w a = 0 → isLogFull m t = true)
    (hc : s.crtReadAddrVal t = slotAddr t (back 300 w a)) :
    (readNextLog m t s).2 = entryAt m (slotAddr t (back 300 w (a + 1))) ∧
    (readNextLog m t s).1.crtReadAddrVal t = slotAddr t (back 300 w (a + 1)) := by
  have hstep := back_step hw (N := 300) ha
  have haddr : nextReadAddr m t s = some (slotAddr t (back 300 w (a + 1))) := by
    rw [nextReadAddr, hc, hstep]
    by_cases h0 : back 300 w a = 0
    · rw [if_pos (slotAddr_eq_base.mpr h0), if_pos (hbase h0), if_pos h0, slotAddr_last]
    · rw [if_neg (mt slotAddr_eq_base.mp h0), if_neg h0,
        u32_slot_pred t h0 (back_lt hw (by omega)).le]
  have hcur := stepRead_cursor (m := m) (t := t) (s := s) .next
  have hcur' : (readNextLog m t s).1.crtReadAddrVal t = _ := hcur
  refine ⟨?_, ?_⟩
  · rw [readNextLog, haddr]
  · rw [hcur', show stepAddr m t .next s = _ from haddr]
    rfl

/-- Reading `n` entries whose slots hold `l`, from the slot `a` steps behind `w` on. -/
theorem readRun_slots (hw : w < 300) : ∀ (l : List Entry) (a : ℕ) (s : Log), a + l.length ≤ 300 →
    (∀ i (h : i < l.length), slotBytes m t (back 300 w (a + i + 1)) = l[i].bytes) →
    (a + l.length ≤ w ∨ isLogFull m t = true) →
    s.crtReadAddrVal t = slotAddr t (back 300 w a) →
    (readRun (readNextLog m t) l.length s).2 = l.map Entry.text
  | [], _, _, _, _, _, _ => rfl
  | e :: l, a, s, hlen, hslots, hfull, hc => by
      rw [List.length_cons] at hlen hfull
      have hbase : back 300 w a = 0 → isLogFull m t = true := by
        intro h0
        refine hfull.resolve_left fun hle => ?_
        rw [back_of_le (by omega)] at h0
        omega
      obtain ⟨hread, hcur⟩ := readNextLog_back hw (by omega) hbase hc
      have htext : (readNextLog m t s).2 = e.text := by
        have h0 := hslots 0 (by simp)
        rw [Nat.add_zero, List.getElem_cons_zero, slotBytes] at h0
        rw [hread, entryAt, h0, Entry.text, eachLogSize]
      have ih := readRun_slots hw l (a + 1) (readNextLog m t s).1 (by omega) (fun i hi => by
        have := hslots (i + 1) (by simpa using hi)
        rwa [List.getElem_cons_succ, show a + (i + 1) + 1 = a + 1 + i + 1 by omega] at this)
        (hfull.imp_left fun h => by omega) hcur
      simp only [List.length_cons, readRun]
      rw [if_neg (by rw [htext]; exact e.text_ne), htext, ih, List.map_cons]

theorem readBack_slots (hw : w < 300) (hn : s.nextWriteAddrVal t = slotAddr t w) {l : List Entry}
    (hlen : l.length ≤ 300)
    (hslots : ∀ i (h : i < l.length), slotBytes m t (back 300 w (i + 1)) = l[i].bytes)
    (hfull : l.length ≤ w ∨ isLogFull m t = true) :
    readBack m t l.length s = l.map Entry.text := by
  refine readRun_slots hw l 0 _ (by omega) (fun i hi => ?_) (by rwa [Nat.zero_add]) ?_
  · rw [Nat.zero_add]; exact hslots i hi
  · rw [setReadAddr_read, hn, back_zero]

end Back

/-! ### The cut points -/

section Cut

variable {m : Eeprom} {s : Log} {t : LogType} {w : ℕ} {es : List Entry}

/-- Reading back only needs the ring up to the slot that was being written. -/
theorem recovered_of_slots {m' : Eeprom} {r : Eeprom × Log} (h : Stored m t w es)
    (hframe : ∀ k, k < 300 → k ≠ w → slotBytes m' t k = slotBytes m t k)
    (hlast : w = 299 ∨ m' (eachTypeLogMaxAddr t) = m (eachTypeLogMaxAddr t))
    (hr : SameRing t m' r.1) (hn : r.2.nextWriteAddrVal t = slotAddr t w) :
    Recovered t es r := by
  have hw := h.lt
  have hle := h.length_le
  have hlen : (es.take 299).length ≤ 299 := List.length_take_le ..
  refine ⟨by rw [hn]; exact inRing_slotAddr hw, [], by simp, ?_⟩
  rw [List.length_nil, Nat.zero_add, List.nil_append]
  refine readBack_slots hw hn (by omega) (fun i hi => ?_) ?_
  · have hi' : i < es.length := by
      rw [List.length_take] at hi; omega
    have hk := back_lt hw (N := 300) (a := i + 1) (by omega)
    have hne : back 300 w (i + 1) ≠ w := fun hb => by
      rcases back_eq_self (by omega) hb with h0 | h0 <;> omega
    rw [hr.slotBytes hk, hframe _ hk hne, h.get hi', List.getElem_take]
  · rcases h.length with hl | hl
    · left; rw [List.length_take]; omega
    · rcases hlast with rfl | hlast
      · left; exact hlen
      · -- the last slot still says that the ring has been full
        right
        have hm : isLogFull m t = true := by rw [h.isLogFull, hl]; rfl
        have hmax : r.1 (eachTypeLogMaxAddr t) = m (eachTypeLogMaxAddr t) := by
          rw [← slotAddr_last, hr.slot (by norm_num), slotAddr_last, hlast]
        have hlt := slotAddr_lt t (k := 299) (by norm_num)
        rw [slotAddr_last] at hlt
        rw [isLogFull, readOneByte_eq _ (by omega)] at hm ⊢
        rwa [hmax]

/-- A log with the entry written reads back the entry and the old ones. -/
theorem recovered_of_push {r : Eeprom × Log} {e : Entry} {v : ℕ}
    (h : WellFormed r.1 r.2 t v (Ring.push 300 e es)) : Recovered t es r := by
  have hv := h.lt
  refine ⟨by rw [h.next]; exact inRing_slotAddr hv, [e.text], le_rfl, ?_⟩
  have hpush : Ring.push 300 e es = e :: es.take 299 := by
    rw [Ring.push, List.take_succ_cons]
  have hback := readBack_slots hv h.next h.length_le (fun i hi => h.get hi) (by
    rcases h.length with hl | hl
    · exact Or.inl hl.le
    · right; rw [h.isLogFull, hl]; rfl)
  rw [hpush, List.length_cons, List.map_cons] at hback
  rw [List.length_singleton, Nat.add_comm, hback, List.singleton_append]

/-- Storing bytes of one slot leaves the pointer alone. -/
theorem readPointer_write_slot (m : Eeprom) (t : LogType) (hw : w < 300) {buf : List UInt8}
    (hb : buf.length ≤ 20) :
    at24cxxReadLenByte (at24cxxWrite m (slotAddr t w) buf) (logNextWAddr t) 2 =
      at24cxxReadLenByte m (logNextWAddr t) 2 := by
  have ht := t.isLt
  have hp := logNextWAddr_eq t
  have hfar (x : ℕ) (hx : x ≤ logNextWAddr t + 1) :
      at24cxxReadOneByte (at24cxxWrite m (slotAddr t w) buf) x = at24cxxReadOneByte m x := by
    rw [readOneByte_eq _ (by omega), readOneByte_eq _ (by omega)]
    exact write_slot_frame m t hw hb (Or.inl (by rw [slotAddr_eq]; omega))
  rw [readLenByte_two, readLenByte_two, hfar _ le_rfl, hfar _ (by omega)]

/-- Cut inside the entry: the old log stands. -/
theorem recovered_inside (h : WellFormed m s t w es) (buf : List UInt8) (hb : buf.length ≤ 20) :
    Recovered t es (logInit (at24cxxWrite m (slotAddr t w) buf) powerOn) := by
  have hw := h.lt
  have hlt := slotAddr_lt t hw.le
  obtain ⟨hr, -, hn⟩ := logInit_spec (at24cxxWrite m (slotAddr t w) buf) powerOn t
    ((readPointer_write_slot m t hw hb).trans h.stored)
  rw [bootPointer_of_ne (by omega)] at hn
  refine recovered_of_slots h.toStored (fun k hk hne => slotBytes_write_other m t hw hk hne hb) ?_
    hr hn
  rcases eq_or_ne w 299 with h299 | h299
  · exact Or.inl h299
  · right
    rw [← slotAddr_last]
    exact write_slot_frame m t hw hb (Or.inr (by simp only [slotAddr_eq]; omega))

/-- The high byte of the pointer stays when the low byte does not carry and the ring does not wrap. -/
theorem pointer_high_eq (t : LogType) (hw : w < 300) :
    slotAddr t w / 256 = slotAddr t (Ring.succ 300 w) / 256 ↔ w < 299 ∧ slotAddr t w % 256 < 236 := by
  rw [Ring.succ]
  split_ifs with h299
  · simp only [slotAddr_eq]; omega
  · simp only [slotAddr_eq]; omega

/-- The old high byte with the new low byte is a slot address only when it is the new pointer. -/
theorem mixed_pointer (t : LogType)
    (h : slotAddr t w / 256 ≠ slotAddr t (Ring.succ 300 w) / 256) :
    ¬ InRing t (slotAddr t w / 256 * 256 + slotAddr t (Ring.succ 300 w) % 256) := by
  have ht := t.isLt
  rw [InRing, base_eq, max_eq, eachLogSize]
  rw [Ring.succ] at h ⊢
  split_ifs at h ⊢ with h299
  · simp only [slotAddr_eq] at h ⊢; omega
  · simp only [slotAddr_eq] at h ⊢; omega

/-- The writes before the `k`-th, by the part of the call they end in. -/
theorem take_writeLogWrites (h : WellFormed m s t w es) (time : TimeStr) (flag : UInt8) (k : ℕ) :
    (k ≤ 20 ∧ burn m ((writeLogWrites s t time.bytes flag).take k) =
      at24cxxWrite m (slotAddr t w) ((time.bytes ++ [flag]).take k)) ∨
    (k = 21 ∧ burn m ((writeLogWrites s t time.bytes flag).take k) =
      at24cxxWriteOneByte (at24cxxWrite m (slotAddr t w) (time.bytes ++ [flag])) (logNextWAddr t)
        (UInt8.ofNat (slotAddr t (Ring.succ 300 w)))) ∨
    (22 ≤ k ∧ burn m ((writeLogWrites s t time.bytes flag).take k) =
      (writeLog m s t time.bytes flag).1) := by
  have hlen : (bufferWrites (slotAddr t w) (time.bytes ++ [flag])).length = 20 := by
    rw [length_bufferWrites]; exact (time.entry flag).size
  rcases Nat.lt_or_ge k 21 with hk | hk
  · left
    refine ⟨by omega, ?_⟩
    rw [writeLogWrites, h.next, List.take_append_of_le_length (by omega), take_bufferWrites,
      burn_bufferWrites]
  rcases Nat.lt_or_ge k 22 with hk' | hk'
  · right; left
    obtain rfl : k = 21 := by omega
    refine ⟨rfl, ?_⟩
    rw [writeLogWrites, h.next, advance_slotAddr t h.lt, List.take_append, hlen,
      List.take_of_length_le (by omega), burn_append, burn_bufferWrites]
    rfl
  · right; right
    refine ⟨hk', ?_⟩
    rw [List.take_of_length_le, burn_writeLogWrites]
    rw [writeLogWrites, h.next, List.length_append, hlen]
    exact hk'

/-- The high byte of the stored pointer. -/
theorem Stored.pointer_high (h : Stored m t w es) :
    (at24cxxReadOneByte m (logNextWAddr t + 1)).toNat = slotAddr t w / 256 := by
  have hs := h.stored
  rw [readLenByte_two] at hs
  have hlo := (at24cxxReadOneByte m (logNextWAddr t)).toNat_lt
  omega

/-- Cut between the two pointer bytes, with the high byte already right: the call is complete. -/
theorem recovered_low_eq (h : WellFormed m s t w es) (time : TimeStr) (flag : UInt8)
    (hhigh : slotAddr t w / 256 = slotAddr t (Ring.succ 300 w) / 256) :
    Recovered t es (logInit (at24cxxWriteOneByte
      (at24cxxWrite m (slotAddr t w) (time.bytes ++ [flag])) (logNextWAddr t)
        (UInt8.ofNat (slotAddr t (Ring.succ 300 w)))) powerOn) := by
  have hw := h.lt
  have hp := logNextWAddr_eq t
  have ht := t.isLt
  have hbuf : (time.bytes ++ [flag]).length = 20 := (time.entry flag).size
  have hdone : at24cxxWriteOneByte (at24cxxWrite m (slotAddr t w) (time.bytes ++ [flag]))
      (logNextWAddr t) (UInt8.ofNat (slotAddr t (Ring.succ 300 w))) =
      (writeLog m s t time.bytes flag).1 := by
    have hbyte : m (logNextWAddr t + 1) = UInt8.ofNat (slotAddr t (Ring.succ 300 w) / 256) := by
      have hb := h.pointer_high
      rw [readOneByte_eq _ (by omega), hhigh] at hb
      rw [← hb, UInt8.ofNat_toNat]
    rw [writeLog_mem h, writeLenByte_two]
    funext x
    rw [writeOneByte_apply _ (a := logNextWAddr t + 1) (by omega)]
    split_ifs with hx
    · rw [hx, writeOneByte_apply _ (by omega), if_neg (by omega),
        write_slot_frame m t hw hbuf.le (Or.inl (by rw [slotAddr_eq]; omega)), hbyte]
    · rfl
  rw [hdone]
  exact recovered_of_push ((h.writeLog time flag).toStored.logInit powerOn)

/-- Cut between the two pointer bytes, with the high byte still to change: no slot address. -/
theorem not_recovered_low (h : WellFormed m s t w es) (time : TimeStr) (flag : UInt8)
    (hhigh : slotAddr t w / 256 ≠ slotAddr t (Ring.succ 300 w) / 256) :
    ¬ Recovered t es (logInit (at24cxxWriteOneByte
      (at24cxxWrite m (slotAddr t w) (time.bytes ++ [flag])) (logNextWAddr t)
        (UInt8.ofNat (slotAddr t (Ring.succ 300 w)))) powerOn) := by
  rintro ⟨hring, -⟩
  have hw := h.lt
  have hp := logNextWAddr_eq t
  have ht := t.isLt
  have hbuf : (time.bytes ++ [flag]).length = 20 := (time.entry flag).size
  have hlt := slotAddr_lt t hw.le
  have hread : at24cxxReadLenByte (at24cxxWriteOneByte
      (at24cxxWrite m (slotAddr t w) (time.bytes ++ [flag])) (logNextWAddr t)
        (UInt8.ofNat (slotAddr t (Ring.succ 300 w)))) (logNextWAddr t) 2 =
      slotAddr t w / 256 * 256 + slotAddr t (Ring.succ 300 w) % 256 := by
    have hb := h.pointer_high
    rw [readOneByte_eq _ (by omega)] at hb
    rw [readLenByte_two, readOneByte_writeOneByte, if_neg (by omega), readOneByte_writeOneByte,
      if_pos rfl, readOneByte_eq _ (by omega),
      write_slot_frame m t hw hbuf.le (Or.inl (by rw [slotAddr_eq]; omega)), hb, UInt8.toNat_ofNat']
  obtain ⟨-, -, hn⟩ := logInit_spec _ powerOn t hread
  rw [bootPointer_of_ne (by omega)] at hn
  rw [hn] at hring
  exact mixed_pointer t hhigh hring

/-- A cut of `WriteLog` behind any number of its byte writes is recovered from, unless it falls
    between the two bytes of the pointer while the high byte has to change. -/
theorem cutWriteLog_recovered_iff (h : WellFormed m s t w es) (time : TimeStr) (alarmFlag : UInt8)
    (k : ℕ) : Recovered t es (cutWriteLog m s t time.bytes alarmFlag k) ↔
      k ≠ 21 ∨ w < 299 ∧ slotAddr t w % 256 < 236 := by
  rw [cutWriteLog, ← pointer_high_eq t h.lt]
  rcases take_writeLogWrites h time alarmFlag k with ⟨hk, hb⟩ | ⟨hk, hb⟩ | ⟨hk, hb⟩
  · rw [hb]
    refine iff_of_true (recovered_inside h _ ?_) (Or.inl (by omega))
    rw [List.length_take]; omega
  · rw [hb]
    by_cases hhigh : slotAddr t w / 256 = slotAddr t (Ring.succ 300 w) / 256
    · exact iff_of_true (recovered_low_eq h time alarmFlag hhigh) (Or.inr hhigh)
    · refine iff_of_false (not_recovered_low h time alarmFlag hhigh) ?_
      rintro (h1 | h1)
      · exact h1 hk
      · exact hhigh h1
  · rw [hb]
    exact iff_of_true (recovered_of_push ((h.writeLog time alarmFlag).toStored.logInit powerOn))
      (Or.inl (by omega))

end Cut

/-- A full ring: the cut between the pointer bytes of slots 4 and 5. -/
theorem cutWriteLog_full_ring :
    WellFormed (fullMem .BIVD 4) (fullLog .BIVD 4) .BIVD 4 (List.replicate 300 Entry.ones) ∧
    Recovered .BIVD (List.replicate 300 Entry.ones)
      (cutWriteLog (fullMem .BIVD 4) (fullLog .BIVD 4) .BIVD TimeStr.sample.bytes 2 21) := by
  have h := wellFormed_full (t := .BIVD) (w := 4) (by norm_num)
  exact ⟨h, (cutWriteLog_recovered_iff h .sample 2 21).mpr (by decide)⟩

/-- The pointer of an `AOPN` log goes from `0x2FF4` to `0x3008` with its second entry; cut between the
    two bytes it is `0x2F08`. -/
theorem not_every_cut_recovered : ¬ ∀ (m : Eeprom) (s : Log) (t : LogType) (w : ℕ)
    (es : List Entry) (time : TimeStr) (alarmFlag : UInt8) (k : ℕ), WellFormed m s t w es →
    Recovered t es (cutWriteLog m s t time.bytes alarmFlag k) := by
  intro h
  have hwf := ((erased_newEeprom .AOPN).logInit powerOn).writeLog .sample 2
  have hring := (h _ _ _ _ _ .sample 2 21 hwf).1
  revert hring
  decide +kernel

end Log

end VectorFence
