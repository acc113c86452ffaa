import VectorFence.Log.History

/-! Walking a ring one entry at a time. On a well-formed log the read cursor stands on the slot
    `Ring.back 300 w a`: `a` steps behind the write pointer, so that the next older entry is number
    `a` of the history. `readNextLog` steps `a` up, `readPreviousLog` steps it down; every page
    function is a run of one of the two (`readRun`) followed by its own way of storing the entries. -/

namespace VectorFence

/-- An entry as the readers hand it out, the alarm flag replaced by the terminating NUL. -/
def Entry.text (e : Entry) : List UInt8 := e.bytes.set 19 0

theorem Entry.text_headD (e : Entry) : e.text.headD 0 = e.bytes.headD 0 := by
  have hs := e.size
  cases hb : e.bytes with
  | nil => rw [hb] at hs; simp at hs
  | cons b bs => simp [Entry.text, hb]

theorem Entry.text_ne (e : Entry) : e.text.headD 0 ≠ 0 := by rw [e.text_headD]; exact e.shown

namespace Log

open Eeprom Ring

/-! ### Small facts about the state -/

@[simp] theorem setReadAddr_read (s : Log) (t : LogType) (a : ℕ) :
    (s.setReadAddr t a).crtReadAddrVal t = a := Function.update_self ..

@[simp] theorem setReadAddr_next (s : Log) (t : LogType) (a : ℕ) :
    (s.setReadAddr t a).nextWriteAddrVal = s.nextWriteAddrVal := rfl

@[simp] theorem setReadAddr_setReadAddr (s : Log) (t : LogType) (a b : ℕ) :
    (s.setReadAddr t a).setReadAddr t b = s.setReadAddr t b := by
  simp only [setReadAddr, Function.update_idem]

theorem setReadAddr_self {s : Log} {t : LogType} {a : ℕ} (h : s.crtReadAddrVal t = a) :
    s.setReadAddr t a = s := by
  simp only [setReadAddr, ← h, Function.update_eq_self]

/-- `updateLogPageFlag` on a log of `n` entries. -/
def mark (n : ℕ) (flag : UInt8) (s : Log) : Log :=
  { s with
    webLogPageFlag := if 10 < n then flag else s.webLogPageFlag ||| flag
    LCDLogPageFlag := if 3 < n then flag else s.LCDLogPageFlag ||| flag }

@[simp] theorem mark_read (n : ℕ) (f : UInt8) (s : Log) :
    (mark n f s).crtReadAddrVal = s.crtReadAddrVal := rfl

@[simp] theorem mark_next (n : ℕ) (f : UInt8) (s : Log) :
    (mark n f s).nextWriteAddrVal = s.nextWriteAddrVal := rfl

@[simp] theorem mark_mark (n : ℕ) (f : UInt8) (s : Log) : mark n f (mark n f s) = mark n f s := by
  have hor : ∀ x : UInt8, x ||| f ||| f = x ||| f := fun x => by rw [UInt8.or_assoc, UInt8.or_self]
  simp only [mark]
  split_ifs <;> simp only [hor]

/-- `mark` where a condition holds. -/
def markIf (c : Prop) [Decidable c] (n : ℕ) (flag : UInt8) (s : Log) : Log :=
  if c then mark n flag s else s

@[simp] theorem markIf_read (c : Prop) [Decidable c] (n : ℕ) (f : UInt8) (s : Log) :
    (markIf c n f s).crtReadAddrVal = s.crtReadAddrVal := by unfold markIf; split_ifs <;> rfl

@[simp] theorem markIf_next (c : Prop) [Decidable c] (n : ℕ) (f : UInt8) (s : Log) :
    (markIf c n f s).nextWriteAddrVal = s.nextWriteAddrVal := by unfold markIf; split_ifs <;> rfl

theorem markIf_setReadAddr (c : Prop) [Decidable c] (n : ℕ) (f : UInt8) (s : Log) (t : LogType)
    (a : ℕ) : (markIf c n f s).setReadAddr t a = markIf c n f (s.setReadAddr t a) := by
  unfold markIf; split_ifs <;> rfl

theorem markIf_markIf (c d : Prop) [Decidable c] [Decidable d] (n : ℕ) (f : UInt8) (s : Log) :
    markIf c n f (markIf d n f s) = markIf (c ∨ d) n f s := by
  by_cases hc : c <;> by_cases hd : d <;> simp [markIf, hc, hd]

theorem markIf_congr {c d : Prop} [Decidable c] [Decidable d] (h : c ↔ d) (n : ℕ) (f : UInt8)
    (s : Log) : markIf c n f s = markIf d n f s := by
  unfold markIf; simp only [h]

/-- The two flags are all that `markIf` changes. -/
theorem markIf_eq (c : Prop) [Decidable c] (n : ℕ) (f : UInt8) (s : Log) : markIf c n f s =
    { s with
      webLogPageFlag :=
        if c then if 10 < n then f else s.webLogPageFlag ||| f else s.webLogPageFlag
      LCDLogPageFlag :=
        if c then if 3 < n then f else s.LCDLogPageFlag ||| f else s.LCDLogPageFlag } := by
  by_cases hc : c
  · simp only [markIf, if_pos hc, mark]
  · simp only [markIf, if_neg hc]

section Read

variable {m : Eeprom} {s s' : Log} {t : LogType} {w : ℕ} {es : List Entry}

theorem WellFormed.of_next (h : WellFormed m s t w es)
    (hn : s'.nextWriteAddrVal = s.nextWriteAddrVal) : WellFormed m s' t w es :=
  { toStored := h.toStored, next := by rw [hn]; exact h.next }

theorem WellFormed.setReadAddr (h : WellFormed m s t w es) (a : ℕ) :
    WellFormed m (s.setReadAddr t a) t w es := h.of_next rfl

theorem overOne_eq (h : WellFormed m s t w es) (p : ℕ) (hp : p < 300) :
    isLogPageOverOne m p t s = decide (p < es.length) := by
  rw [isLogPageOverOne, h.isLogFull, h.next, slotAddr_eq, base_eq, eachLogSize]
  have hl := h.length
  have hw := h.lt
  by_cases hf : es.length = 300
  · simp [hf, hp]
  · simp only [hf, decide_false, Bool.false_eq_true, if_false]
    exact decide_eq_decide.mpr (by omega)

theorem updateLogPageFlag_eq (h : WellFormed m s t w es) (f : UInt8) :
    updateLogPageFlag m t f s = mark es.length f s := by
  simp only [updateLogPageFlag, isWebLogPageOverOne, isLCDLogPageOverOne, eachWebPageLogNum,
    eachLcdPageLogNum, overOne_eq h 10 (by omega), overOne_eq h 3 (by omega), decide_eq_true_eq, mark]

theorem entryAt_slot (h : WellFormed m s t w es) {a : ℕ} (ha : a < es.length) :
    entryAt m (slotAddr t (back 300 w (a + 1))) = es[a].text := by
  have := h.get ha
  rw [slotBytes] at this
  rw [entryAt, this, Entry.text, eachLogSize]

/-- One slot back from an address in the ring. -/
theorem u32_slot_pred (t : LogType) {k : ℕ} (h0 : k ≠ 0) (hk : k ≤ 300) :
    u32 (slotAddr t k - eachLogSize) = slotAddr t (k - 1) := by
  have hlt := slotAddr_lt t hk
  refine u32_eq ?_ (by have := slotAddr_lt t (k := k - 1) (by omega); omega)
  rw [slotAddr_eq, slotAddr_eq, eachLogSize]; omega

/-- One slot up from an address in the ring. -/
theorem u32_slot_succ (t : LogType) {k : ℕ} (hk : k < 300) :
    u32 (slotAddr t k + eachLogSize) = slotAddr t (k + 1) := by
  refine u32_eq ?_ (by have := slotAddr_lt t (k := k + 1) (by omega); omega)
  rw [slotAddr_eq, slotAddr_eq, eachLogSize]; omega

theorem slotAddr_eq_base {t : LogType} {k : ℕ} : slotAddr t k = eachTypeLogBasedAddr t ↔ k = 0 := by
  rw [← slotAddr_zero, slotAddr_inj]

theorem slotAddr_eq_max {t : LogType} {k : ℕ} : slotAddr t k = eachTypeLogMaxAddr t ↔ k = 299 := by
  rw [← slotAddr_last, slotAddr_inj]

/-- `readNextLog` hands out entry `a` of the history and raises `LOG_END` at the oldest one. -/
theorem readNextLog_lt (h : WellFormed m s t w es) {a : ℕ} (ha : a < es.length)
    (hc : s.crtReadAddrVal t = slotAddr t (back 300 w a)) :
    readNextLog m t s =
      (markIf (a + 1 = es.length) es.length logEnd (s.setReadAddr t (slotAddr t (back 300 w (a + 1)))),
        es[a].text) := by
  have hw := h.lt
  have hle := h.length_le
  have hl := h.length
  have hb := back_lt hw (N := 300) (a := a) (by omega)
  have hstep := back_step hw (a := a) (N := 300) (by omega)
  have haddr : nextReadAddr m t s = some (slotAddr t (back 300 w (a + 1))) := by
    simp only [nextReadAddr, hc, slotAddr_eq_base, h.isLogFull, hstep]
    by_cases h0 : back 300 w a = 0
    · have hfull : es.length = 300 := by
        rcases hl with hl | hl
        · rw [back_of_le (by omega)] at h0; omega
        · exact hl
      rw [if_pos h0, if_pos h0, if_pos (by rw [hfull]; rfl), slotAddr_last]
    · rw [if_neg h0, if_neg h0, u32_slot_pred t h0 hb.le]
  -- the address that ends the log is the slot of the oldest entry
  have hold : (slotAddr t (back 300 w (a + 1)) =
      if isLogFull m t then (s.setReadAddr t (slotAddr t (back 300 w (a + 1)))).nextWriteAddrVal t
      else eachTypeLogBasedAddr t) ↔ a + 1 = es.length := by
    rw [h.isLogFull, setReadAddr_next, h.next, ← slotAddr_zero]
    by_cases hf : es.length = 300
    · rw [if_pos (by simpa using hf), slotAddr_inj]
      constructor
      · intro he; rcases back_eq_self (by omega) he with h1 | h1 <;> omega
      · intro he; rw [he, hf, back_of_lt hw]; omega
    · rw [if_neg (by simpa using hf), slotAddr_inj, back_of_le (by omega)]; omega
  rw [readNextLog, haddr]
  simp only [hold, entryAt_slot h ha, markIf, updateLogPageFlag_eq (h.setReadAddr _)]

/-- At the end of a log that was never full `readNextLog` hands out nothing. -/
theorem readNextLog_end (h : WellFormed m s t w es) (hf : es.length < 300)
    (hc : s.crtReadAddrVal t = slotAddr t (back 300 w es.length)) :
    readNextLog m t s = (mark es.length logEnd s, blankEntry) := by
  have hl := h.length
  have haddr : nextReadAddr m t s = none := by
    simp only [nextReadAddr, hc, slotAddr_eq_base, h.isLogFull]
    rw [back_of_le (by omega), if_pos (by omega), if_neg (by simp; omega)]
  rw [readNextLog, haddr]
  simp only [updateLogPageFlag_eq h]

theorem newestAddr_eq (h : WellFormed m s t w es) {k : ℕ} (hk : k < 300) :
    slotAddr t k = newestAddr t s ↔ k + 1 = w := by
  have hw := h.lt
  rw [newestAddr, h.next]
  by_cases h0 : w = 0
  · subst h0
    have hu : u32 (slotAddr t 0 - eachLogSize) = 236 + 6000 * t := by
      refine u32_eq ?_ (by omega)
      rw [slotAddr_eq, eachLogSize]; omega
    rw [hu, slotAddr_eq]; omega
  · rw [u32_slot_pred t h0 hw.le, slotAddr_inj]; omega

/-- `readPreviousLog` hands out the entry before entry `b`; it recognises the newest one unless the
    write pointer stands at the base. -/
theorem readPreviousLog_lt (h : WellFormed m s t w es) {b : ℕ} (hb0 : 0 < b) (hb : b < es.length)
    (hc : s.crtReadAddrVal t = slotAddr t (back 300 w (b + 1))) :
    readPreviousLog m t s =
      (markIf (b = 1 ∧ w ≠ 0) es.length logHead (s.setReadAddr t (slotAddr t (back 300 w b))),
        es[b - 1].text) := by
  have hw := h.lt
  have hle := h.length_le
  have hk := back_lt hw (N := 300) (a := b) (by omega)
  have hk1 := back_lt hw (N := 300) (a := b + 1) (by omega)
  have hstep := back_step hw (a := b) (N := 300) (by omega)
  have hone : back 300 w b + 1 = w ↔ b = 1 ∧ w ≠ 0 := by
    unfold back; split_ifs <;> omega
  have haddr : previousReadAddr t s = some (slotAddr t (back 300 w b)) := by
    simp only [previousReadAddr, hc, slotAddr_eq_max, newestAddr_eq h hk1]
    rw [u32_slot_succ t hk1]
    by_cases h0 : back 300 w b = 0
    · rw [if_pos (by rw [hstep, if_pos h0]), h0, slotAddr_zero]
    · rw [if_neg (by rw [hstep, if_neg h0]; omega), if_neg ?_, hstep, if_neg h0,
        Nat.sub_add_cancel (by omega)]
      intro he
      have : back 300 w (b + 1) = back 300 w 1 := by rw [back_of_le (a := 1) (by omega)]; omega
      rw [hstep, if_neg h0] at this
      unfold back at this h0 hstep; split_ifs at this h0 hstep <;> omega
  have hnew := newestAddr_eq (h.setReadAddr (slotAddr t (back 300 w b))) hk
  have htext : entryAt m (slotAddr t (back 300 w b)) = es[b - 1].text := by
    have := entryAt_slot h (a := b - 1) (by omega)
    rwa [Nat.sub_add_cancel hb0] at this
  rw [readPreviousLog, haddr]
  simp only [hnew, hone, htext, markIf, updateLogPageFlag_eq (h.setReadAddr _)]

end Read

/-! ### Runs of entries -/

/-- Read at most `fuel` entries, until an empty one. -/
def readRun (read : Log → Log × List UInt8) : ℕ → Log → Log × List (List UInt8)
  | 0, s => (s, [])
  | fuel + 1, s =>
    let r := read s
    if r.2.headD 0 = 0 then (r.1, [])
    else
      let q := readRun read fuel r.1
      (q.1, r.2 :: q.2)

/-- Store entries one after the other, the first under index `i`. -/
def putAll (put : ℕ → List UInt8 → Log → Log) : ℕ → List (List UInt8) → Log → Log
  | _, [], s => s
  | i, e :: l, s => putAll put (i + 1) l (put i e s)

section Loop

variable {read : Log → Log × List UInt8} {put : ℕ → List UInt8 → Log → Log}

theorem readRun_put (hcomm : ∀ i x s, read (put i x s) = (put i x (read s).1, (read s).2)) (i : ℕ)
    (x : List UInt8) : ∀ (k : ℕ) (s : Log),
      readRun read k (put i x s) = (put i x (readRun read k s).1, (readRun read k s).2)
  | 0, _ => rfl
  | k + 1, s => by
      simp only [readRun, hcomm i x s]
      by_cases h0 : (read s).2.headD 0 = 0
      · simp only [if_pos h0]
      · simp only [if_neg h0, readRun_put hcomm i x k (read s).1]

/-- When storing does not disturb reading, a page loop reads its entries and then stores them. -/
theorem pageLoop_eq (hcomm : ∀ i x s, read (put i x s) = (put i x (read s).1, (read s).2)) :
    ∀ (k i : ℕ) (s : Log), pageLoop read put k i s =
      (putAll put i (readRun read k s).2 (readRun read k s).1, i + (readRun read k s).2.length)
  | 0, _, _ => rfl
  | k + 1, i, s => by
      simp only [pageLoop, readRun]
      by_cases h0 : (read s).2.headD 0 = 0
      · simp only [if_pos h0, putAll, List.length_nil, Nat.add_zero]
      · simp only [if_neg h0]
        rw [pageLoop_eq hcomm k (i + 1) (put i (read s).2 (read s).1), readRun_put hcomm i]
        simp only [putAll, List.length_cons]
        rw [Nat.add_right_comm, Nat.add_assoc]

end Loop

section Run

variable {m : Eeprom} {s : Log} {t : LogType} {w : ℕ} {es : List Entry}

/-- Reading `k` entries downwards from entry `a` on. A ring that has been full must not be read past
    its oldest entry, where `readNextLog` would start over. -/
theorem readRun_next : ∀ (k a : ℕ) (s : Log), WellFormed m s t w es → a ≤ es.length →
    (a + k ≤ es.length ∨ es.length < 300) → s.crtReadAddrVal t = slotAddr t (back 300 w a) →
    readRun (readNextLog m t) k s =
      (markIf (0 < k ∧ es.length ≤ a + k) es.length logEnd
        (s.setReadAddr t (slotAddr t (back 300 w (min (a + k) es.length)))),
      ((es.drop a).take k).map Entry.text)
  | 0, a, s, _, ha, _, hc => by
      rw [readRun, markIf, if_neg (by omega), Nat.add_zero, Nat.min_eq_left ha, setReadAddr_self hc,
        List.take_zero, List.map_nil]
  | k + 1, a, s, h, ha, hk, hc => by
      rcases Nat.lt_or_eq_of_le ha with hlt | rfl
      · -- an entry is read, the run goes on from the next one
        have hread := readNextLog_lt h hlt hc
        have hwf : WellFormed m (readNextLog m t s).1 t w es := h.of_next (by rw [hread]; simp)
        have hcur : (readNextLog m t s).1.crtReadAddrVal t = slotAddr t (back 300 w (a + 1)) := by
          rw [hread]; simp
        have ih := readRun_next k (a + 1) _ hwf (by omega) (by omega) hcur
        simp only [readRun]
        rw [if_neg (by rw [hread]; exact Entry.text_ne _), ih, hread]
        have hcons : (es.drop a).take (k + 1) = es[a] :: (es.drop (a + 1)).take k := by
          rw [List.drop_eq_getElem_cons hlt, List.take_succ_cons]
        rw [hcons, List.map_cons, show a + 1 + k = a + (k + 1) by omega]
        simp only [markIf_setReadAddr, setReadAddr_setReadAddr, markIf_markIf]
        exact congrArg (·, _) (markIf_congr (by omega) ..)
      · -- the end of a log never full
        have hf : es.length < 300 := hk.resolve_left (by omega)
        simp only [readRun]
        rw [readNextLog_end h hf hc, if_pos (by simp [blankEntry, eachLogSize]), markIf,
          if_pos (by omega), Nat.min_eq_right (by omega), setReadAddr_self hc, List.drop_length,
          List.take_nil, List.map_nil]

/-- Reading `k` entries upwards from entry `b` on, the newest one being entry 0. -/
theorem readRun_previous : ∀ (k b : ℕ) (s : Log), WellFormed m s t w es → k ≤ b → b < es.length →
    s.crtReadAddrVal t = slotAddr t (back 300 w (b + 1)) →
    readRun (readPreviousLog m t) k s =
      (markIf (0 < k ∧ k = b ∧ w ≠ 0) es.length logHead
        (s.setReadAddr t (slotAddr t (back 300 w (b - k + 1)))),
      (((es.drop (b - k)).take k).map Entry.text).reverse)
  | 0, b, s, _, _, _, hc => by
      rw [readRun, markIf, if_neg (by omega), Nat.sub_zero, setReadAddr_self hc,
        List.take_zero, List.map_nil, List.reverse_nil]
  | k + 1, b, s, h, hk, hb, hc => by
      have hread := readPreviousLog_lt h (by omega) hb hc
      have hwf : WellFormed m (readPreviousLog m t s).1 t w es := h.of_next (by rw [hread]; simp)
      have hcur : (readPreviousLog m t s).1.crtReadAddrVal t =
          slotAddr t (back 300 w (b - 1 + 1)) := by
        rw [hread, Nat.sub_add_cancel (by omega)]; simp
      have ih := readRun_previous k (b - 1) _ hwf (by omega) (by omega) hcur
      simp only [readRun]
      rw [if_neg (by rw [hread]; exact Entry.text_ne _), ih, hread]
      have hsnoc : (es.drop (b - (k + 1))).take (k + 1) =
          (es.drop (b - 1 - k)).take k ++ [es[b - 1]] := by
        rw [List.take_add_one, show b - (k + 1) = b - 1 - k by omega, List.getElem?_drop,
          show b - 1 - k + k = b - 1 by omega, List.getElem?_eq_getElem (by omega), Option.toList_some]
      rw [hsnoc, List.map_append, List.reverse_append, List.map_singleton, List.reverse_singleton,
        List.singleton_append, show b - (k + 1) = b - 1 - k by omega]
      simp only [markIf_setReadAddr, setReadAddr_setReadAddr, markIf_markIf]
      exact congrArg (·, _) (markIf_congr (by omega) ..)

end Run

end Log

end VectorFence
