import VectorFence.Log.Turns

/-! One run of `FastClearLog` and `WriteLog`: what the two calls find and what is there at the end, by
    how many turns of `FastClearLog` at a cell come before turn `i` of `WriteLog`.

        turn of WriteLog     0      1 … 20      21      22   23   24
        at                   next   the entry   next    lo   hi   (behind the last one)

        FastClearLog at next      0 ─ read ─ 1 ─ read again with an erased probe ─ 2 ─ set ─ 3
        FastClearLog at lo, hi    0 ─ erased ─ 1 ─ read ─ 2 ─ stored where both were erased ─ 3 -/

namespace VectorFence

namespace Log

open Eeprom Interleave

/-! ### At one cell -/

section Chains

variable {V : Type*} {v n z v' a b o c w u g u' f : V} {i j : ℕ}

/-- Two turns of the one program, with two turns of the other. -/
theorem chain_two (hij : i ≤ j) (hj : j ≤ 2)
    (h : Chain v (merge 0 [(n, n), (z, v')] [(i, (a, a)), (j, (c, b))]) w) :
    n = (if j = 0 then b else v) ∧ a = (if i = 2 then v' else v) ∧ c = (if j = 2 then v' else v) ∧
      w = if j = 2 then b else v' := by
  interval_cases j <;> interval_cases i <;> simp_all [merge]

/-- Three turns of the one program, with two turns of the other. -/
theorem chain_three {n' : V} (hij : i ≤ j) (hj : j ≤ 3)
    (h : Chain v (merge 0 [(n, n), (n', n'), (z, v')] [(i, (a, a)), (j, (c, b))]) w) :
    n = (if j = 0 then b else v) ∧ n' = (if j ≤ 1 then b else v) ∧ a = (if i = 3 then v' else v) ∧
      c = (if j = 3 then v' else v) ∧ w = if j = 3 then b else v' := by
  interval_cases j <;> interval_cases i <;> simp_all [merge]

/-- A cell is erased, read, and where `p` holds stored; the other program stores `b`. -/
theorem chain_pointer {p : Prop} [Decidable p] (hj : j ≤ 2 + if p then 1 else 0)
    (h : Chain v (merge 0 ([(u, f), (g, g)] ++ if p then [(u', c)] else []) [(j, (o, b))]) w) :
    g = (if j = 1 then b else f) ∧
      w = if j = 3 then b else if p then c else if j = 0 then f else b := by
  split_ifs at hj h ⊢ with hp <;> interval_cases j <;> simp_all [merge]

/-- A cell is read where `p` holds, then where `q` holds erased; the other program stores `b`. -/
theorem chain_head {p q : Prop} [Decidable p] [Decidable q]
    (hj : j ≤ (if p then 1 else 0) + if q then 1 else 0)
    (h : Chain v
      (merge 0 ((if p then [(g, g)] else []) ++ if q then [(u, f)] else []) [(j, (o, b))]) w) :
    (p → g = if j = 0 then b else v) ∧
      w = if q ∧ j < (if p then 1 else 0) + 1 then f else b := by
  by_cases hp : p <;> by_cases hq : q <;> simp only [hp, hq, if_true, if_false] at hj h ⊢ <;>
    interval_cases j <;> simp_all [merge]

end Chains

/-- The slots whose first byte is written: all of a full ring, those below `w` of another one. -/
theorem WellFormed.written_iff {m : Eeprom} {s : Log} {t : LogType} {w : ℕ} {es : List Entry}
    (h : WellFormed m s t w es) {j : ℕ} (hj : j < 300) :
    m (slotAddr t j) ≠ 0xFF ↔ es.length = 300 ∨ j < w := by
  have hlen := h.length_le
  constructor
  · intro hne
    by_contra hout
    exact hne (h.fresh (by omega) j (by omega) hj)
  · intro hin
    obtain ⟨a, ha, hback⟩ : ∃ a < es.length, Ring.back 300 w (a + 1) = j := by
      by_cases hfull : es.length = 300
      · obtain ⟨a, ha, hback⟩ := Ring.exists_back h.lt hj
        exact ⟨a, by omega, hback⟩
      · have hw := h.length
        exact ⟨w - j - 1, by omega, by rw [Ring.back_of_le (by omega)]; omega⟩
    rw [← hback, h.head ha]
    exact es[a].written

/-- The clear erases the first byte of the entry. A full ring is erased as a whole; of another one all
    slots where the probe finds the entry, else those below `nextWriteAddrVal` as it is read again. -/
def Wiped (t : LogType) (w n : ℕ) (T : List (Bool × Cell)) : Prop :=
  if n = 300 then passed T 1 (headCell t w) ≤ 1
  else passed T 1 (headCell t w) = 0 ∨ passed T 21 (.next t) ≤ 1 ∧ w ≠ 299

instance (t : LogType) (w n : ℕ) (T : List (Bool × Cell)) : Decidable (Wiped t w n T) :=
  inferInstanceAs (Decidable (ite _ _ _))

/-- The slot of the entry: the next one, or the first one where `Log_Init` has been there. -/
abbrev entrySlot (t : LogType) (w : ℕ) (T : List (Bool × Cell)) : ℕ :=
  if passed T 0 (.next t) = passed T 24 (.next t) then 0 else w

/-! ### What a run finds -/

/-- A run of the two calls with entry `e`, `W` and `C` being what they find. -/
structure Overlapped (m : Eeprom) (s : Log) (t : LogType) (e : List UInt8) (mem : ∀ l : Cell, l.Val)
    (L : List (Bool × Turn Cell.Val)) (W : WriteTurns) (C : ClearTurns) : Prop where
  write : own true L = W.turns t e
  clear : own false L = C.turns t
  ok : C.Ok t
  size : e.length = 20
  chain : ∀ x, Chain (cells m s.nextWriteAddrVal x) (merge 0 (changes x (C.turns t))
    (placed x (passed (cellsOf L) · x) 0 (W.turns t e))) (mem x)

theorem exists_overlapped {m : Eeprom} {s : Log} {t : LogType} {time : List UInt8} {flag : UInt8}
    {mem : ∀ l : Cell, l.Val} {L : List (Bool × Turn Cell.Val)} (htime : time.length = 19)
    (h : Woven (race m s t time flag).prog (cells m s.nextWriteAddrVal) mem L) :
    ∃ W C, Overlapped m s t (time ++ [flag]) mem L W C := by
  obtain ⟨W, hW⟩ := Steps.path_writeLog (h.path true)
  obtain ⟨C, hC, hok⟩ := Steps.path_fastClearLog (h.path false)
  refine ⟨W, C, hW, hC, hok, by simp [htime], fun x => ?_⟩
  rw [← hW, ← hC]
  exact h.merged x

namespace Overlapped

variable {m : Eeprom} {s : Log} {t : LogType} {w : ℕ} {es : List Entry} {e : List UInt8}
  {mem : ∀ l : Cell, l.Val} {L : List (Bool × Turn Cell.Val)} {W : WriteTurns} {C : ClearTurns}

theorem passed_end (h : Overlapped m s t e mem L W C) (x : Cell) :
    passed (cellsOf L) 24 x = (changes x (C.turns t)).length := by
  rw [← h.clear]
  refine Interleave.passed_end x L 24 ?_
  rw [h.write, WriteTurns.turns]
  simp [h.size]

theorem passed_le (h : Overlapped m s t e mem L W C) (i : ℕ) (x : Cell) :
    passed (cellsOf L) i x ≤ (changes x (C.turns t)).length := by
  rw [← h.clear]
  exact Interleave.passed_le x i

/-- The clear comes to `nextWriteAddrVal` twice, or three times when the probe is erased. -/
theorem passed_next (h : Overlapped m s t e mem L W C) :
    passed (cellsOf L) 24 (.next t) = if C.probe ≠ 0xFF then 2 else 3 := by
  obtain ⟨hearly, hback⟩ := ClearTurns.changes_next h.ok
  rw [h.passed_end, ClearTurns.turns, changes_append, changes_cons_self, hearly, hback]
  split_ifs <;> rfl

/-- What the two calls find in `nextWriteAddrVal`, and what is in it at the end. -/
theorem next (h : Overlapped m s t e mem L W C) (hwf : WellFormed m s t w es) :
    C.next = (if passed (cellsOf L) 21 (.next t) = 0 then advance t W.next else slotAddr t w) ∧
      (C.probe = 0xFF →
        C.last = if passed (cellsOf L) 21 (.next t) ≤ 1 then advance t W.next else slotAddr t w) ∧
      W.slot = (if passed (cellsOf L) 0 (.next t) = passed (cellsOf L) 24 (.next t) then C.set t
        else slotAddr t w) ∧
      W.next = (if passed (cellsOf L) 21 (.next t) = passed (cellsOf L) 24 (.next t) then C.set t
        else slotAddr t w) ∧
      mem (.next t) = if passed (cellsOf L) 21 (.next t) = passed (cellsOf L) 24 (.next t) then
        advance t W.next else C.set t := by
  obtain ⟨hearly, hback⟩ := ClearTurns.changes_next h.ok
  have hchain := h.chain (.next t)
  have hle := h.passed_le 21 (.next t)
  have hmono : passed (cellsOf L) 0 (.next t) ≤ passed (cellsOf L) 21 (.next t) :=
    passed_le_passed _ (by omega)
  have hstart : cells m s.nextWriteAddrVal (.next t) = slotAddr t w := hwf.next
  rw [ClearTurns.turns, changes_append, changes_cons_self, hearly, hback] at hchain hle
  rw [WriteTurns.placed_next h.size, hstart] at hchain
  rw [h.passed_next]
  by_cases hprobe : C.probe ≠ 0xFF
  · rw [if_pos hprobe] at hchain hle ⊢
    obtain ⟨hnext, hslot, hmoved, hend⟩ := chain_two hmono hle hchain
    exact ⟨hnext, fun hff => absurd hff hprobe, hslot, hmoved, hend⟩
  · rw [if_neg hprobe] at hchain hle ⊢
    obtain ⟨hnext, hlast, hslot, hmoved, hend⟩ := chain_three hmono hle hchain
    exact ⟨hnext, fun _ => hlast, hslot, hmoved, hend⟩

/-- Moved on before the clear sets it, `nextWriteAddrVal` is at the slot after `w`. -/
theorem advance_next (h : Overlapped m s t e mem L W C) (hwf : WellFormed m s t w es)
    (hp : passed (cellsOf L) 21 (.next t) ≠ passed (cellsOf L) 24 (.next t)) :
    advance t W.next = slotAddr t (Ring.succ 300 w) := by
  obtain ⟨-, -, -, hnext, -⟩ := h.next hwf
  rw [hnext, if_neg hp, advance_slotAddr t hwf.lt]

/-- The probe is at the next slot, or behind it when `nextWriteAddrVal` has been moved on. -/
theorem probe_slot (h : Overlapped m s t e mem L W C) (hwf : WellFormed m s t w es) :
    C.next = slotAddr t (if passed (cellsOf L) 21 (.next t) = 0 then Ring.succ 300 w else w) := by
  have htotal := h.passed_next
  rw [(h.next hwf).1]
  split_ifs with hp
  · refine h.advance_next hwf ?_
    rw [hp, htotal]
    split_ifs <;> simp
  · rfl

/-- A written probe has all slots erased, else those below `nextWriteAddrVal` are. -/
theorem slots_eq (h : Overlapped m s t e mem L W C) (hwf : WellFormed m s t w es) :
    C.slots = if C.probe ≠ 0xFF then 300
      else if passed (cellsOf L) 21 (.next t) ≤ 1 then Ring.succ 300 w else w := by
  have hlt := hwf.lt
  have hsucc := Ring.succ_lt hwf.lt
  by_cases hprobe : C.probe ≠ 0xFF
  · rw [if_pos hprobe]
    exact h.ok.full hprobe
  · have htotal := h.passed_next
    rw [if_neg hprobe] at htotal ⊢
    rw [not_not] at hprobe
    have hlast := (h.next hwf).2.1 hprobe
    refine h.ok.used hprobe _ (by split_ifs <;> omega) ?_
    rw [hlast]
    split_ifs with hp
    · exact h.advance_next hwf (by omega)
    · rfl

theorem inRing (h : Overlapped m s t e mem L W C) (hwf : WellFormed m s t w es) : C.InRing t := by
  have hlt := hwf.lt
  have hsucc := Ring.succ_lt hwf.lt
  refine ⟨⟨_, ?_, h.probe_slot hwf⟩, ?_⟩
  · split_ifs <;> assumption
  · rw [h.slots_eq hwf]
    split_ifs <;> omega

/-- A turn behind the one that sets `nextWriteAddrVal` is behind all turns before that one. -/
theorem passed_early (h : Overlapped m s t e mem L W C) {i j : ℕ} (hij : i ≤ j)
    (hset : passed (cellsOf L) i (.next t) = passed (cellsOf L) 24 (.next t)) (x : Cell) :
    (changes x (C.early t)).length ≤ passed (cellsOf L) j x := by
  obtain ⟨-, hback⟩ := ClearTurns.changes_next h.ok
  have hlt : (changes (.next t) (C.early t)).length < passed (cellsOf L) i (.next t) := by
    rw [hset, h.passed_end, ClearTurns.turns, changes_append, changes_cons_self, hback,
      List.length_append]
    exact Nat.lt_succ_self _
  refine le_trans ?_ (passed_of_passed (y := x) (h.clear.trans rfl) hij hlt)
  rw [changes_append, List.length_append]
  exact Nat.le_add_right _ _

/-- The low byte of an address of a slot is even, and the high byte small. -/
theorem slot_bytes (t : LogType) {k : ℕ} (hk : k < 300) :
    (UInt8.ofNat (slotAddr t k)).toNat = slotAddr t k % 256 ∧
      (UInt8.ofNat (slotAddr t k / 256)).toNat = slotAddr t k / 256 ∧ slotAddr t k % 256 ≠ 255 ∧
        slotAddr t k / 256 < 0x77 := by
  have hlt := slotAddr_lt t hk.le
  rw [UInt8.toNat_ofNat', UInt8.toNat_ofNat']
  rw [slotAddr_eq] at hlt ⊢
  omega

/-- Where all turns of the write at a cell are behind two turns of the clear, the second finds what the
    first has left. -/
theorem chain_ahead {x : Cell} {c c' : x.Val × x.Val} (h : Overlapped m s t e mem L W C)
    (hcs : changes x (C.early t) = [c, c']) (hplace : ∀ i, 2 ≤ passed (cellsOf L) i x) :
    c'.1 = c.2 := by
  have hchain := h.chain x
  have hle : ∀ p ∈ placed x (passed (cellsOf L) · x) 0 (W.turns t e), 2 ≤ p.1 :=
    le_of_mem_placed hplace 0
  rw [ClearTurns.turns, changes_append, hcs, List.cons_append, List.cons_append, List.nil_append,
    merge_cons fun p hp => le_trans (by omega) (hle p hp), merge_cons hle] at hchain
  exact hchain.2.1

theorem stored_eq (hlow : C.low = 0xFF) (hhigh : C.high = 0xFF) : C.stored = 0xffff := by
  rw [ClearTurns.stored, hlow, hhigh]
  rfl

/-- The write stores its entry in the next slot, or in the first one when `Log_Init` has been there. -/
theorem slot_eq (h : Overlapped m s t e mem L W C) (hwf : WellFormed m s t w es) :
    W.slot = slotAddr t (entrySlot t w (cellsOf L)) := by
  rw [(h.next hwf).2.2.1]
  split_ifs with hp
  · obtain ⟨⟨hlow, -⟩, hhigh, -⟩ := ClearTurns.changes_pointer h.ok (h.inRing hwf)
    have hplace (x : Cell) (hx : 2 ≤ (changes x (C.early t)).length) (i : ℕ) :
        2 ≤ passed (cellsOf L) i x := hx.trans (h.passed_early (Nat.zero_le i) hp x)
    have hstored : C.stored = 0xffff := stored_eq
      (h.chain_ahead hlow (hplace _ (by rw [hlow]; rfl)))
      (h.chain_ahead hhigh (hplace _ (by rw [hhigh]; rfl)))
    rw [ClearTurns.set, if_pos hstored, slotAddr_zero]
  · rfl

theorem slot_lt (hwf : WellFormed m s t w es) : entrySlot t w (cellsOf L) < 300 := by
  have hlt := hwf.lt
  rw [entrySlot]
  split_ifs <;> omega

/-- What the clear finds in the stored pointer, and what is there at the end. -/
theorem pointer (h : Overlapped m s t e mem L W C) (hwf : WellFormed m s t w es) :
    (C.low = (if passed (cellsOf L) 22 (lowCell t) = 1 then UInt8.ofNat (advance t W.next) else 0xFF) ∧
      mem (lowCell t) = if passed (cellsOf L) 22 (lowCell t) = 3 then UInt8.ofNat (advance t W.next)
        else if C.stored = 0xffff then UInt8.ofNat (eachTypeLogBasedAddr t)
        else if passed (cellsOf L) 22 (lowCell t) = 0 then 0xFF else UInt8.ofNat (advance t W.next)) ∧
      C.high = (if passed (cellsOf L) 23 (highCell t) = 1 then UInt8.ofNat (advance t W.next / 256)
        else 0xFF) ∧
      mem (highCell t) = if passed (cellsOf L) 23 (highCell t) = 3 then
          UInt8.ofNat (advance t W.next / 256)
        else if C.stored = 0xffff then UInt8.ofNat (eachTypeLogBasedAddr t / 256)
        else if passed (cellsOf L) 23 (highCell t) = 0 then 0xFF
        else UInt8.ofNat (advance t W.next / 256) := by
  obtain ⟨⟨-, hlow⟩, -, hhigh⟩ := ClearTurns.changes_pointer h.ok (h.inRing hwf)
  have hplaced (x : Cell) := WriteTurns.placed_pointer (passed (cellsOf L) · x) h.size
    (slot_lt (L := L) hwf) (h.slot_eq hwf)
  have hclow := h.chain (lowCell t)
  have hchigh := h.chain (highCell t)
  have hllow := h.passed_le 22 (lowCell t)
  have hlhigh := h.passed_le 23 (highCell t)
  rw [hlow, (hplaced _).1] at hclow
  rw [hhigh, (hplaced _).2] at hchigh
  rw [hlow, List.length_append] at hllow
  rw [hhigh, List.length_append] at hlhigh
  have hlen (a b : UInt8) : (if C.stored = 0xffff then [(a, b)] else []).length =
      if C.stored = 0xffff then 1 else 0 := by
    split_ifs <;> rfl
  rw [hlen] at hllow hlhigh
  exact ⟨chain_pointer hllow hclow, chain_pointer hlhigh hchigh⟩

/-- Where the pointer is moved on behind `Log_Init`, `Log_Init` has found it erased. -/
theorem late (h : Overlapped m s t e mem L W C) (hwf : WellFormed m s t w es)
    (hlate : passed (cellsOf L) 21 (.next t) = passed (cellsOf L) 24 (.next t)) :
    C.stored = 0xffff ∧ 2 ≤ passed (cellsOf L) 22 (lowCell t) ∧
      2 ≤ passed (cellsOf L) 23 (highCell t) := by
  obtain ⟨⟨hlow, -⟩, hhigh, -⟩ := ClearTurns.changes_pointer h.ok (h.inRing hwf)
  have hplow := h.passed_early (j := 22) (by omega) hlate (lowCell t)
  have hphigh := h.passed_early (j := 23) (by omega) hlate (highCell t)
  rw [hlow] at hplow
  rw [hhigh] at hphigh
  obtain ⟨⟨hfoundLow, -⟩, hfoundHigh, -⟩ := h.pointer hwf
  rw [if_neg fun h => absurd (h ▸ hplow) (by simp)] at hfoundLow
  rw [if_neg fun h => absurd (h ▸ hphigh) (by simp)] at hfoundHigh
  exact ⟨stored_eq hfoundLow hfoundHigh, hplow, hphigh⟩

/-- Where the write stores the next slot: behind `w`, or behind the first one. -/
theorem moved (h : Overlapped m s t e mem L W C) (hwf : WellFormed m s t w es) :
    advance t W.next = slotAddr t
      (if passed (cellsOf L) 21 (.next t) = passed (cellsOf L) 24 (.next t) then 1
        else Ring.succ 300 w) := by
  split_ifs with hp
  · obtain ⟨hstored, -⟩ := h.late hwf hp
    rw [(h.next hwf).2.2.2.1, if_pos hp, ClearTurns.set, if_pos hstored, ← slotAddr_zero,
      advance_slotAddr t (by omega)]
    rfl
  · exact h.advance_next hwf hp

/-- `Log_Init` finds the pointer erased unless a byte is stored between the erasing and the reading;
    with both bytes it finds the new pointer, with one of them no address of a slot. -/
theorem stored_cases (h : Overlapped m s t e mem L W C) (hwf : WellFormed m s t w es) :
    (passed (cellsOf L) 22 (lowCell t) ≠ 1 ∧ passed (cellsOf L) 23 (highCell t) ≠ 1 ∧
        C.stored = 0xffff) ∨
      (passed (cellsOf L) 22 (lowCell t) = 1 ∧ passed (cellsOf L) 23 (highCell t) = 1 ∧
        C.stored = slotAddr t (Ring.succ 300 w)) ∨
      ((passed (cellsOf L) 22 (lowCell t) = 1 ↔ passed (cellsOf L) 23 (highCell t) ≠ 1) ∧
        C.stored ≠ 0xffff ∧ ∀ k < 300, C.stored ≠ slotAddr t k) := by
  obtain ⟨⟨hlow, -⟩, hhigh, -⟩ := h.pointer hwf
  have hnext (hin : passed (cellsOf L) 22 (lowCell t) = 1 ∨ passed (cellsOf L) 23 (highCell t) = 1) :
      advance t W.next = slotAddr t (Ring.succ 300 w) := by
    refine h.advance_next hwf fun hlate => ?_
    have := (h.late hwf hlate).2
    omega
  have hsucc := Ring.succ_lt hwf.lt
  obtain ⟨hb, hb', hne, hlt⟩ := slot_bytes t hsucc
  by_cases hx : passed (cellsOf L) 22 (lowCell t) = 1
  · rw [if_pos hx, hnext (.inl hx)] at hlow
    by_cases hy : passed (cellsOf L) 23 (highCell t) = 1
    · rw [if_pos hy, hnext (.inr hy)] at hhigh
      refine .inr (.inl ⟨hx, hy, ?_⟩)
      rw [ClearTurns.stored, hlow, hhigh, hb, hb']
      omega
    · rw [if_neg hy] at hhigh
      have hstored : C.stored = 255 * 256 + slotAddr t (Ring.succ 300 w) % 256 := by
        rw [ClearTurns.stored, hlow, hhigh, hb]
        rfl
      refine .inr (.inr ⟨iff_of_true hx hy, by omega, fun k hk => ?_⟩)
      have := slotAddr_lt t hk.le
      omega
  · rw [if_neg hx] at hlow
    by_cases hy : passed (cellsOf L) 23 (highCell t) = 1
    · rw [if_pos hy, hnext (.inr hy)] at hhigh
      have hstored : C.stored = slotAddr t (Ring.succ 300 w) / 256 * 256 + 255 := by
        rw [ClearTurns.stored, hlow, hhigh, hb']
        rfl
      refine .inr (.inr ⟨iff_of_false hx (not_not.mpr hy), by omega, fun k hk => ?_⟩)
      have := (slot_bytes t hk).2.2.1
      omega
    · rw [if_neg hy] at hhigh
      exact .inl ⟨hx, hy, stored_eq hlow hhigh⟩

/-- Where `nextWriteAddrVal` is at the end. -/
theorem next_end (h : Overlapped m s t e mem L W C) (hwf : WellFormed m s t w es) :
    mem (.next t) = if passed (cellsOf L) 21 (.next t) = passed (cellsOf L) 24 (.next t) then
        slotAddr t 1
      else if C.stored = 0xffff then slotAddr t 0 else C.stored := by
  have hmoved := h.moved hwf
  rw [(h.next hwf).2.2.2.2]
  split_ifs with hp hstored
  · rw [hmoved, if_pos hp]
  · rw [ClearTurns.set, if_pos hstored, slotAddr_zero]
  · rw [ClearTurns.set, if_neg hstored]

/-! ### The ring -/

/-- The slot that the write uses. -/
theorem placed_head (h : Overlapped m s t e mem L W C) (hwf : WellFormed m s t w es) {a : ℕ}
    (ha : entrySlot t w (cellsOf L) = a)
    (place : ℕ → ℕ) (j : ℕ) : placed (headCell t j) place 0 (W.turns t e) =
      if j = a then [(place 1, (W.bytes 0, e.getD 0 0))] else [] := by
  have hslot := h.slot_eq hwf
  have hlt := slot_lt (L := L) hwf
  rw [ha] at hslot hlt
  rw [WriteTurns.placed_byte h.size hlt hslot (by rw [slotAddr_eq]; omega)]
  by_cases hj : j = a
  · rw [hj, if_pos rfl, if_pos ⟨le_rfl, by rw [slotAddr_eq, slotAddr_eq]; omega⟩, Nat.sub_self]
  · rw [if_neg hj, if_neg]
    rw [slotAddr_eq, slotAddr_eq, slotAddr_eq]
    omega

/-- The first byte of a slot that the write does not use. -/
theorem head_of_ne (h : Overlapped m s t e mem L W C) (hwf : WellFormed m s t w es) {j : ℕ}
    (hj : j < 300) (hne : entrySlot t w (cellsOf L) ≠ j) :
    (C.next = slotAddr t j → C.probe = m (slotAddr t j)) ∧
      mem (headCell t j) = if j < C.slots then 0xFF else m (slotAddr t j) := by
  have hchain := h.chain (headCell t j)
  rw [(ClearTurns.changes_head h.ok (h.inRing hwf) hj).2.2, h.placed_head hwf rfl,
    if_neg hne.symm] at hchain
  have hstart : cells m s.nextWriteAddrVal (headCell t j) = m (slotAddr t j) := rfl
  rw [hstart] at hchain
  split_ifs at hchain ⊢ <;> simp_all [merge]

/-- The first byte of the slot that the write uses. -/
theorem head_of_eq (h : Overlapped m s t e mem L W C) (hwf : WellFormed m s t w es) {j : ℕ}
    (hj : j < 300) (heq : entrySlot t w (cellsOf L) = j) :
    (C.next = slotAddr t j → C.probe = if passed (cellsOf L) 1 (headCell t j) = 0 then e.getD 0 0
        else m (slotAddr t j)) ∧
      mem (headCell t j) = if j < C.slots ∧ passed (cellsOf L) 1 (headCell t j) <
        (if C.next = slotAddr t j then 1 else 0) + 1 then 0xFF else e.getD 0 0 := by
  have hchanges := (ClearTurns.changes_head h.ok (h.inRing hwf) hj).2.2
  have hchain := h.chain (headCell t j)
  have hle := h.passed_le 1 (headCell t j)
  rw [hchanges, h.placed_head hwf heq, if_pos rfl] at hchain
  rw [hchanges, List.length_append] at hle
  refine chain_head ?_ hchain
  split_ifs at hle ⊢ <;> simpa using hle

theorem first_le (L : List (Bool × Turn Cell.Val)) (t : LogType) :
    passed (cellsOf L) 0 (.next t) ≤ passed (cellsOf L) 21 (.next t) := passed_le_passed _ (by omega)

theorem two_le_next (h : Overlapped m s t e mem L W C) : 2 ≤ passed (cellsOf L) 24 (.next t) := by
  rw [h.passed_next]
  split_ifs <;> omega

/-- An entry that is written before the clear looks for the probe is found, with `nextWriteAddrVal`
    moved on the slot behind it. -/
theorem probe_eq (h : Overlapped m s t e mem L W C) (hwf : WellFormed m s t w es) :
    (passed (cellsOf L) 21 (.next t) = 0 → passed (cellsOf L) 1 (headCell t w) = 0 ∧
        C.probe = m (slotAddr t (Ring.succ 300 w))) ∧
      (passed (cellsOf L) 21 (.next t) ≠ 0 → C.probe =
        if passed (cellsOf L) 1 (headCell t w) = 0 then e.getD 0 0 else m (slotAddr t w)) := by
  have hnext := h.probe_slot hwf
  have hfirst := first_le L t
  have htwo := h.two_le_next
  constructor
  · intro hp
    rw [if_pos hp] at hnext
    refine ⟨?_, (h.head_of_ne hwf (Ring.succ_lt hwf.lt) ?_).1 hnext⟩
    · by_contra hE
      have hfront : own false L = [⟨lowCell t, C.wasLow, 0xFF⟩, ⟨highCell t, C.wasHigh, 0xFF⟩] ++
          ⟨.next t, C.next, C.next⟩ :: (⟨.byte (C.next % 0x10000), C.probe, C.probe⟩ :: C.again t ++
            C.middle t ++ ⟨.next t, C.wasNext, C.set t⟩ :: C.back t) := by
        rw [h.clear]
        simp [ClearTurns.turns, ClearTurns.early, ClearTurns.front]
      have hone := passed_of_passed (x := headCell t w) (y := .next t) (i := 1) (j := 21) hfront
        (by omega) ?_
      · rw [changes_append, changes_cons_self, hp] at hone
        simp at hone
      · have hpointer := pointer_ne_slotAddr (t := t) w
        rw [changes_cons_of_ne (by simpa using hpointer.1),
          changes_cons_of_ne (by simpa using hpointer.2)]
        exact Nat.pos_of_ne_zero hE
    · have hlt := hwf.lt
      rw [entrySlot, if_neg (by omega), Ring.succ]
      split_ifs <;> omega
  · intro hp
    rw [if_neg hp] at hnext
    by_cases ha : entrySlot t w (cellsOf L) = w
    · exact (h.head_of_eq hwf hwf.lt ha).1 hnext
    · have hlate : passed (cellsOf L) 0 (.next t) = passed (cellsOf L) 24 (.next t) := by
        by_contra hne
        exact ha (if_neg hne)
      have hE := h.passed_early (j := 1) (by omega) hlate (headCell t w)
      rw [(ClearTurns.changes_head h.ok (h.inRing hwf) hwf.lt).2.1, if_pos hnext, List.length_append,
        List.length_singleton] at hE
      rw [if_neg (by omega)]
      exact (h.head_of_ne hwf hwf.lt ha).1 hnext

/-- A full ring is erased as a whole. -/
theorem slots_full (h : Overlapped m s t e mem L W C) (hwf : WellFormed m s t w es)
    (he : e.getD 0 0 ≠ 0xFF) (hfull : es.length = 300) : C.slots = 300 := by
  obtain ⟨hzero, hpos⟩ := h.probe_eq hwf
  refine h.ok.full ?_
  by_cases hp : passed (cellsOf L) 21 (.next t) = 0
  · rw [(hzero hp).2]
    exact (hwf.written_iff (Ring.succ_lt hwf.lt)).mpr (.inl hfull)
  · rw [hpos hp]
    split_ifs
    · exact he
    · exact (hwf.written_iff hwf.lt).mpr (.inl hfull)

/-- Of another ring, what is erased depends on what the clear finds. -/
theorem slots_part (h : Overlapped m s t e mem L W C) (hwf : WellFormed m s t w es)
    (he : e.getD 0 0 ≠ 0xFF) (hpart : es.length ≠ 300) :
    C.slots = if passed (cellsOf L) 21 (.next t) = 0 then if w = 299 then 300 else w + 1
      else if passed (cellsOf L) 1 (headCell t w) = 0 then 300
      else if passed (cellsOf L) 21 (.next t) ≤ 1 then Ring.succ 300 w else w := by
  obtain ⟨hzero, hpos⟩ := h.probe_eq hwf
  have hlt := hwf.lt
  have hlen := hwf.length
  have hslots := h.slots_eq hwf
  by_cases hp : passed (cellsOf L) 21 (.next t) = 0
  · have hwritten := hwf.written_iff (Ring.succ_lt hlt)
    rw [← (hzero hp).2] at hwritten
    rw [if_pos hp, hslots]
    by_cases hw : w = 299
    · have hsucc : Ring.succ 300 w = 0 := if_pos (by omega)
      rw [if_pos hw, if_pos (hwritten.mpr (.inr (by omega)))]
    · have hsucc : Ring.succ 300 w = w + 1 := if_neg (by omega)
      rw [if_neg hw, if_neg (mt hwritten.mp (by omega)), if_pos (by omega), hsucc]
  · rw [if_neg hp, hslots]
    refine ite_congr (propext ?_) (fun _ => rfl) fun _ => rfl
    rw [hpos hp]
    split_ifs with hE
    · exact iff_of_true he hE
    · refine iff_of_false ?_ hE
      rw [hwf.written_iff hlt]
      omega

/-- The first bytes of the slots that the write does not use are erased at the end, but where the
    pointer has come round before it is read again. -/
theorem erased_of_ne (h : Overlapped m s t e mem L W C) (hwf : WellFormed m s t w es)
    (he : e.getD 0 0 ≠ 0xFF) {j : ℕ} (hj : j < 300)
    (hne : entrySlot t w (cellsOf L) ≠ j)
    (hround : w = 299 → es.length ≠ 300 → passed (cellsOf L) 21 (.next t) ≤ 1 →
      Wiped t w es.length (cellsOf L)) : mem (headCell t j) = 0xFF := by
  rw [(h.head_of_ne hwf hj hne).2]
  split_ifs with hslots
  · rfl
  by_cases hfull : es.length = 300
  · exact absurd hj (h.slots_full hwf he hfull ▸ hslots)
  · have hlt := hwf.lt
    have hlen := hwf.length
    have hpart := h.slots_part hwf he hfull
    have hle : w ≤ C.slots := by
      rw [hpart, Ring.succ]
      split_ifs with hp hw hE hone hround'
      · omega
      · omega
      · omega
      · have hwiped := hround (by omega) hfull hone
        rw [Wiped, if_neg hfull] at hwiped
        omega
      · omega
      · omega
    refine not_not.mp (mt (hwf.written_iff hj).mp ?_)
    omega

/-- The probe is at slot `w` unless the pointer has been moved on. -/
theorem probe_at (h : Overlapped m s t e mem L W C) (hwf : WellFormed m s t w es) :
    C.next = slotAddr t w ↔ passed (cellsOf L) 21 (.next t) ≠ 0 := by
  have hlt := hwf.lt
  rw [h.probe_slot hwf, slotAddr_inj, Ring.succ]
  split_ifs <;> omega

/-- An entry written behind the erasing of its slot is written behind the second look at
    `nextWriteAddrVal`. -/
theorem read_again (h : Overlapped m s t e mem L W C) (hwf : WellFormed m s t w es)
    (hprobe : C.probe = 0xFF) (hE : 2 ≤ passed (cellsOf L) 1 (headCell t w)) :
    2 ≤ passed (cellsOf L) 21 (.next t) := by
  have hagain : own false L = C.front t ++ ⟨.next t, C.last, C.last⟩ ::
      (C.middle t ++ ⟨.next t, C.wasNext, C.set t⟩ :: C.back t) := by
    rw [h.clear]
    simp [ClearTurns.turns, ClearTurns.early, ClearTurns.again, hprobe]
  have hfront : (changes (headCell t w) (C.front t)).length ≤ 1 := by
    rw [(ClearTurns.changes_head h.ok (h.inRing hwf) hwf.lt).1]
    split_ifs <;> simp
  have htwo := passed_of_passed (x := headCell t w) (y := .next t) (i := 1) (j := 21) hagain (by omega)
    (by omega)
  rw [changes_append, changes_cons_self, List.length_append] at htwo
  have hone : 1 ≤ (changes (.next t) (C.front t)).length := by
    simp [ClearTurns.front, changes_cons, Turn.change]
  exact (Nat.add_le_add_right hone _).trans htwo

/-- Whether the entry is still there at the end. -/
theorem head_eq (h : Overlapped m s t e mem L W C) (hwf : WellFormed m s t w es)
    (he : e.getD 0 0 ≠ 0xFF)
    (ha : entrySlot t w (cellsOf L) = w) :
    mem (headCell t w) = if Wiped t w es.length (cellsOf L) then 0xFF else e.getD 0 0 := by
  obtain ⟨hzero, hpos⟩ := h.probe_eq hwf
  have hlt := hwf.lt
  rw [(h.head_of_eq hwf hlt ha).2, if_congr (h.probe_at hwf) rfl rfl]
  refine ite_congr (propext ?_) (fun _ => rfl) fun _ => rfl
  rw [Wiped]
  by_cases hfull : es.length = 300
  · rw [if_pos hfull, h.slots_full hwf he hfull]
    by_cases hp : passed (cellsOf L) 21 (.next t) = 0
    · have := hzero hp
      omega
    · rw [if_pos hp]
      omega
  · rw [if_neg hfull, h.slots_part hwf he hfull]
    by_cases hp : passed (cellsOf L) 21 (.next t) = 0
    · have hE := (hzero hp).1
      rw [if_pos hp, if_neg (not_not.mpr hp)]
      split_ifs <;> omega
    · rw [if_neg hp, if_pos hp]
      by_cases hE : passed (cellsOf L) 1 (headCell t w) = 0
      · rw [if_pos hE]
        omega
      · have hprobe : C.probe = 0xFF := by
          rw [hpos hp, if_neg hE]
          have := hwf.length
          exact not_not.mp (mt (hwf.written_iff hlt).mp (by omega))
        have hread := h.read_again hwf hprobe
        rw [if_neg hE, Ring.succ]
        split_ifs <;> omega

/-- An entry in the first slot behind `Log_Init` stays. -/
theorem head_first (h : Overlapped m s t e mem L W C) (hwf : WellFormed m s t w es)
    (hlate : passed (cellsOf L) 0 (.next t) = passed (cellsOf L) 24 (.next t)) :
    mem (headCell t 0) = e.getD 0 0 := by
  have hE := h.passed_early (j := 1) (by omega) hlate (headCell t 0)
  rw [(ClearTurns.changes_head h.ok (h.inRing hwf) (by omega)).2.1, List.length_append] at hE
  rw [(h.head_of_eq hwf (by omega) (if_pos hlate)).2, if_neg]
  rintro ⟨hslots, hlt⟩
  rw [if_pos hslots] at hE
  split_ifs at hE hlt <;> simp at hE <;> omega

/-- The other bytes of the ring are those of the entry, or what they were. -/
theorem tail_eq (h : Overlapped m s t e mem L W C) (hwf : WellFormed m s t w es) {k : ℕ}
    (hk : entrySlot t w (cellsOf L) = k)
    {a : ℕ} (ha : 256 ≤ a) (hhead : ∀ j < 300, a ≠ slotAddr t j) :
    mem (.byte a) = if slotAddr t k ≤ a ∧ a < slotAddr t (k + 1) then e.getD (a - slotAddr t k) 0
      else m a := by
  have hslot := h.slot_eq hwf
  have hlt := slot_lt (L := L) hwf
  rw [hk] at hslot hlt
  have hchain := h.chain (.byte a)
  rw [ClearTurns.changes_byte h.ok (h.inRing hwf) ha hhead,
    WriteTurns.placed_byte h.size hlt hslot ha] at hchain
  split_ifs at hchain ⊢
  · simp only [merge, List.take_nil, List.drop_nil, List.nil_append, chain_cons, chain_nil] at hchain
    exact hchain.2
  · exact hchain

/-- The clear comes to a byte of the pointer three times at most. -/
theorem pointer_le (h : Overlapped m s t e mem L W C) (hwf : WellFormed m s t w es) :
    passed (cellsOf L) 22 (lowCell t) ≤ 3 ∧ passed (cellsOf L) 23 (highCell t) ≤ 3 := by
  obtain ⟨⟨-, hlow⟩, -, hhigh⟩ := ClearTurns.changes_pointer h.ok (h.inRing hwf)
  have hplow := h.passed_le 22 (lowCell t)
  have hphigh := h.passed_le 23 (highCell t)
  rw [hlow] at hplow
  rw [hhigh] at hphigh
  constructor
  · refine hplow.trans ?_
    split_ifs <;> simp
  · refine hphigh.trans ?_
    split_ifs <;> simp

end Overlapped

end Log

end VectorFence
