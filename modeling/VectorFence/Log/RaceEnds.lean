import VectorFence.Log.Overlap

/-! Which overlaps of `FastClearLog` and `WriteLog` go wrong: those that are neither `WriteFirst` nor
    `ClearFirst`. The two conditions only ask in which order the turns at a cell have come. -/

namespace VectorFence

namespace Log

open Eeprom Interleave

/-! ### What the two orders ask for

    `T` is the turns of a run, `n` the length of the history and `w` the next slot. -/

/-- The overlap ends as if the entry had been written first. -/
structure WriteFirst (t : LogType) (w n : ℕ) (T : List (Bool × Cell)) : Prop where
  -- `nextWriteAddrVal` is moved on before `Log_Init` sets it
  next : passed T 21 (.next t) < passed T 24 (.next t)
  wiped : Wiped t w n T
  -- `Log_Init` finds the pointer erased, or come round to the first slot
  found : passed T 22 (lowCell t) ≠ 1 ∧ passed T 23 (highCell t) ≠ 1 ∨
    w = 299 ∧ passed T 22 (lowCell t) = 1 ∧ passed T 23 (highCell t) = 1
  -- a byte that is stored behind the one of `Log_Init` is the same
  low : passed T 22 (lowCell t) ≤ 2 ∨ slotAddr t (Ring.succ 300 w) % 256 = slotAddr t 0 % 256
  high : passed T 23 (highCell t) ≤ 2 ∨ slotAddr t (Ring.succ 300 w) / 256 = slotAddr t 0 / 256

/-- The overlap ends as if the log had been cleared first. -/
structure ClearFirst (t : LogType) (w n : ℕ) (T : List (Bool × Cell)) : Prop where
  kept : ¬Wiped t w n T
  -- the entry goes into the first slot
  slot : w = 0 ∨ passed T 0 (.next t) = passed T 24 (.next t)
  -- the pointer is stored behind `Log_Init`, or found by it
  pointer : passed T 21 (.next t) = passed T 24 (.next t) ∧ passed T 22 (lowCell t) = 3 ∨
    w = 0 ∧ passed T 22 (lowCell t) = 1 ∧ passed T 23 (highCell t) = 1

/-! ### The two ends -/

/-- The log `t` is empty, with the entry `e` in slot `w` but for its first byte. -/
structure Emptied (m : Eeprom) (t : LogType) (w : ℕ) (e : List UInt8) (mem : ∀ l : Cell, l.Val) :
    Prop where
  next : mem (.next t) = slotAddr t 0
  low : mem (lowCell t) = UInt8.ofNat (slotAddr t 0)
  high : mem (highCell t) = UInt8.ofNat (slotAddr t 0 / 256)
  heads : ∀ j < 300, mem (headCell t j) = 0xFF
  tails : ∀ a ≥ slotAddr t 0, a < slotAddr t 300 → (∀ j < 300, a ≠ slotAddr t j) → mem (.byte a) =
    if slotAddr t w ≤ a ∧ a < slotAddr t (w + 1) then e.getD (a - slotAddr t w) 0 else m a

/-- The log `t` holds the entry `e` in its first slot and nothing else. -/
structure Started (m : Eeprom) (t : LogType) (e : List UInt8) (mem : ∀ l : Cell, l.Val) : Prop where
  next : mem (.next t) = slotAddr t 1
  low : mem (lowCell t) = UInt8.ofNat (slotAddr t 1)
  high : mem (highCell t) = UInt8.ofNat (slotAddr t 1 / 256)
  first : mem (headCell t 0) = e.getD 0 0
  heads : ∀ j < 300, j ≠ 0 → mem (headCell t j) = 0xFF
  tails : ∀ a ≥ slotAddr t 0, a < slotAddr t 300 → (∀ j < 300, a ≠ slotAddr t j) → mem (.byte a) =
    if slotAddr t 0 ≤ a ∧ a < slotAddr t 1 then e.getD (a - slotAddr t 0) 0 else m a

namespace Overlapped

variable {m : Eeprom} {s : Log} {t : LogType} {w : ℕ} {es : List Entry} {e : List UInt8}
  {mem : ∀ l : Cell, l.Val} {L : List (Bool × Turn Cell.Val)} {W : WriteTurns} {C : ClearTurns}

/-- The bytes of two addresses of slots. -/
theorem low_inj {j k : ℕ} (hj : j < 300) (hk : k < 300) :
    UInt8.ofNat (slotAddr t j) = UInt8.ofNat (slotAddr t k) ↔
      slotAddr t j % 256 = slotAddr t k % 256 := by
  rw [← UInt8.toNat_inj, (slot_bytes t hj).1, (slot_bytes t hk).1]

theorem high_inj {j k : ℕ} (hj : j < 300) (hk : k < 300) :
    UInt8.ofNat (slotAddr t j / 256) = UInt8.ofNat (slotAddr t k / 256) ↔
      slotAddr t j / 256 = slotAddr t k / 256 := by
  rw [← UInt8.toNat_inj, (slot_bytes t hj).2.1, (slot_bytes t hk).2.1]

theorem slotAddr_ne (t : LogType) {k : ℕ} (hk : k ≤ 300) : slotAddr t k ≠ 0xffff := by
  have := slotAddr_lt t hk
  omega

/-- What `Log_Init` has found where `nextWriteAddrVal` is back at the first slot. -/
theorem found_of_next (h : Overlapped m s t e mem L W C) (hwf : WellFormed m s t w es)
    (hnext : slotAddr t 0 = if C.stored = 0xffff then slotAddr t 0 else C.stored) :
    passed (cellsOf L) 22 (lowCell t) ≠ 1 ∧ passed (cellsOf L) 23 (highCell t) ≠ 1 ∨
      w = 299 ∧ passed (cellsOf L) 22 (lowCell t) = 1 ∧ passed (cellsOf L) 23 (highCell t) = 1 := by
  have hlt := hwf.lt
  have hsucc := Ring.succ_lt hlt
  rcases h.stored_cases hwf with ⟨hx, hy, -⟩ | ⟨hx, hy, hstored⟩ | ⟨-, hne, hno⟩
  · exact .inl ⟨hx, hy⟩
  · rw [hstored, if_neg (slotAddr_ne t hsucc.le), slotAddr_inj, Ring.succ] at hnext
    refine .inr ⟨?_, hx, hy⟩
    split_ifs at hnext
    omega
  · rw [if_neg hne] at hnext
    exact absurd hnext.symm (hno 0 (by omega))

theorem writeFirst (h : Overlapped m s t e mem L W C) (hwf : WellFormed m s t w es)
    (he : e.getD 0 0 ≠ 0xFF) (hend : Emptied m t w e mem) : WriteFirst t w es.length (cellsOf L) := by
  have hsucc := Ring.succ_lt hwf.lt
  have hnext := h.next_end hwf
  have hfirst := first_le L t
  have hlast := passed_le_passed (L := L) (.next t) (by omega : 21 ≤ 24)
  obtain ⟨⟨-, hlow⟩, -, hhigh⟩ := h.pointer hwf
  obtain ⟨hxle, hyle⟩ := h.pointer_le hwf
  have hearly : passed (cellsOf L) 21 (.next t) ≠ passed (cellsOf L) 24 (.next t) := by
    intro hp
    rw [if_pos hp, hend.next, slotAddr_inj] at hnext
    omega
  rw [if_neg hearly, hend.next] at hnext
  rw [h.moved hwf, if_neg hearly] at hlow hhigh
  refine ⟨by omega, ?_, h.found_of_next hwf hnext, ?_, ?_⟩
  · by_contra hkept
    have hhead := h.head_eq hwf he (if_neg (by omega))
    rw [if_neg hkept, hend.heads w hwf.lt] at hhead
    exact he hhead.symm
  · by_contra! hno
    rw [if_pos (by omega), hend.low, low_inj (by omega) hsucc] at hlow
    exact hno.2 hlow.symm
  · by_contra! hno
    rw [if_pos (by omega), hend.high, high_inj (by omega) hsucc] at hhigh
    exact hno.2 hhigh.symm

theorem emptied (h : Overlapped m s t e mem L W C) (hwf : WellFormed m s t w es)
    (he : e.getD 0 0 ≠ 0xFF) (hcond : WriteFirst t w es.length (cellsOf L)) :
    Emptied m t w e mem := by
  have hlt := hwf.lt
  have hsucc := Ring.succ_lt hlt
  have hnext := h.next_end hwf
  have hfirst := first_le L t
  have hbefore := hcond.next
  have hearly := hcond.next.ne
  obtain ⟨⟨-, hlow⟩, -, hhigh⟩ := h.pointer hwf
  obtain ⟨hxle, hyle⟩ := h.pointer_le hwf
  have hslot : entrySlot t w (cellsOf L) = w := if_neg (by omega)
  rw [if_neg hearly] at hnext
  rw [h.moved hwf, if_neg hearly, ← slotAddr_zero] at hlow hhigh
  have hheads : ∀ j < 300, mem (headCell t j) = 0xFF := by
    intro j hj
    by_cases hjw : j = w
    · rw [hjw, h.head_eq hwf he hslot, if_pos hcond.wiped]
    · exact h.erased_of_ne hwf he hj (by rw [hslot]; exact Ne.symm hjw) fun _ _ _ => hcond.wiped
  have htails := fun a (ha : a ≥ slotAddr t 0) (_ : a < slotAddr t 300) hhead =>
    h.tail_eq hwf hslot (a := a) (by rw [slotAddr_eq] at ha; omega) hhead
  rcases h.stored_cases hwf with ⟨hx, hy, hstored⟩ | ⟨hx, hy, hstored⟩ | ⟨hxy, -, -⟩
  -- `Log_Init` has stored the base
  · rw [if_pos hstored] at hnext hlow hhigh
    refine ⟨hnext, ?_, ?_, hheads, htails⟩
    · rw [hlow]
      split_ifs with hx3
      · exact (low_inj hsucc (by omega)).mpr (hcond.low.resolve_left (by omega))
      · rfl
    · rw [hhigh]
      split_ifs with hy3
      · exact (high_inj hsucc (by omega)).mpr (hcond.high.resolve_left (by omega))
      · rfl
  -- it has found the base, behind the last slot
  · have hw : w = 299 := by
      rcases hcond.found with ⟨hx', -⟩ | ⟨hw, -⟩
      · exact absurd hx hx'
      · exact hw
    have hzero : Ring.succ 300 w = 0 := if_pos (by omega)
    rw [hzero] at hlow hhigh hstored
    have hne : C.stored ≠ 0xffff := hstored ▸ slotAddr_ne t (by omega)
    rw [if_neg hne, hstored] at hnext
    rw [if_neg (by omega), if_neg hne, if_neg (by omega)] at hlow hhigh
    exact ⟨hnext, hlow, hhigh, hheads, htails⟩
  · rcases hcond.found with ⟨hx, hy⟩ | ⟨-, hx, hy⟩
    · exact absurd (hxy.mpr hy) hx
    · exact absurd hy (hxy.mp hx)

/-- Exactly these overlaps end as if the entry had been written and then cleared. -/
theorem emptied_iff (h : Overlapped m s t e mem L W C) (hwf : WellFormed m s t w es)
    (he : e.getD 0 0 ≠ 0xFF) : Emptied m t w e mem ↔ WriteFirst t w es.length (cellsOf L) :=
  ⟨h.writeFirst hwf he, h.emptied hwf he⟩

/-- An entry that is written behind `Log_Init` counts as kept. -/
theorem not_wiped (h : Overlapped m s t e mem L W C) (hwf : WellFormed m s t w es)
    (he : e.getD 0 0 ≠ 0xFF)
    (hlate : passed (cellsOf L) 0 (.next t) = passed (cellsOf L) 24 (.next t)) :
    ¬Wiped t w es.length (cellsOf L) := by
  have hlt := hwf.lt
  have hfirst := first_le L t
  have htwo := h.two_le_next
  have hE := h.passed_early (j := 1) (by omega) hlate (headCell t w)
  rw [(ClearTurns.changes_head h.ok (h.inRing hwf) hlt).2.1,
    if_pos ((h.probe_at hwf).mpr (by omega)), List.length_append, List.length_singleton] at hE
  rw [Wiped]
  split_ifs with hfull
  · rw [if_pos (by rw [h.slots_full hwf he hfull]; exact hlt), List.length_singleton] at hE
    omega
  · omega

/-- The first two slots have the high byte of their addresses in common, and not the low one. -/
theorem first_bytes (t : LogType) :
    slotAddr t 1 / 256 = slotAddr t 0 / 256 ∧ slotAddr t 1 % 256 ≠ slotAddr t 0 % 256 := by
  revert t
  decide

/-- An entry that is found in the first slot was not wiped. -/
theorem kept_of_first (h : Overlapped m s t e mem L W C) (hwf : WellFormed m s t w es)
    (he : e.getD 0 0 ≠ 0xFF) (hslot : entrySlot t w (cellsOf L) = w) (hw : w = 0)
    (hfirst : mem (headCell t 0) = e.getD 0 0) : ¬Wiped t w es.length (cellsOf L) := by
  intro hwiped
  have hhead := h.head_eq hwf he hslot
  rw [if_pos hwiped, hw, hfirst] at hhead
  exact he hhead

/-- With `nextWriteAddrVal` moved on behind `Log_Init`. -/
theorem clearFirst_of_late (h : Overlapped m s t e mem L W C) (hwf : WellFormed m s t w es)
    (he : e.getD 0 0 ≠ 0xFF) (hend : Started m t e mem)
    (hp : passed (cellsOf L) 21 (.next t) = passed (cellsOf L) 24 (.next t)) :
    ClearFirst t w es.length (cellsOf L) := by
  have htwo := h.two_le_next
  obtain ⟨⟨-, hlow⟩, -, -⟩ := h.pointer hwf
  obtain ⟨hstored, hx, hy⟩ := h.late hwf hp
  have hx3 : passed (cellsOf L) 22 (lowCell t) = 3 := by
    by_contra hne
    rw [if_neg hne, if_pos hstored, hend.low, ← slotAddr_zero, low_inj (by omega) (by omega)] at hlow
    exact (first_bytes t).2 hlow
  have hslot : w = 0 ∨ passed (cellsOf L) 0 (.next t) = passed (cellsOf L) 24 (.next t) := by
    by_contra! hno
    have hused : entrySlot t w (cellsOf L) ≠ 0 := by
      rw [entrySlot, if_neg hno.2]
      exact hno.1
    have hhead := h.erased_of_ne hwf he (j := 0) (by omega) hused fun _ _ hround => by omega
    exact he (hend.first.symm.trans hhead)
  refine ⟨?_, hslot, .inl ⟨hp, hx3⟩⟩
  by_cases hlate : passed (cellsOf L) 0 (.next t) = passed (cellsOf L) 24 (.next t)
  · exact h.not_wiped hwf he hlate
  · exact h.kept_of_first hwf he (if_neg hlate) (hslot.resolve_right hlate) hend.first

/-- With `nextWriteAddrVal` found by `Log_Init`. -/
theorem clearFirst_of_early (h : Overlapped m s t e mem L W C) (hwf : WellFormed m s t w es)
    (he : e.getD 0 0 ≠ 0xFF) (hend : Started m t e mem)
    (hp : passed (cellsOf L) 21 (.next t) ≠ passed (cellsOf L) 24 (.next t)) :
    ClearFirst t w es.length (cellsOf L) := by
  have hlt := hwf.lt
  have hfirst := first_le L t
  have hlast := passed_le_passed (L := L) (.next t) (by omega : 21 ≤ 24)
  have hnext := h.next_end hwf
  rw [if_neg hp, hend.next] at hnext
  have hno : C.stored ≠ 0xffff := by
    intro hstored
    rw [if_pos hstored, slotAddr_inj] at hnext
    omega
  rw [if_neg hno] at hnext
  rcases h.stored_cases hwf with ⟨-, -, hstored⟩ | ⟨hx, hy, hstored⟩ | ⟨-, -, hnone⟩
  · exact absurd hstored hno
  · have hw : w = 0 := by
      rw [hstored, slotAddr_inj, Ring.succ] at hnext
      split_ifs at hnext
      omega
    exact ⟨h.kept_of_first hwf he (if_neg (by omega)) hw hend.first, .inl hw, .inr ⟨hw, hx, hy⟩⟩
  · exact absurd hnext.symm (hnone 1 (by omega))

/-- The ring where the log has been cleared first. -/
theorem ring_of_clearFirst (h : Overlapped m s t e mem L W C) (hwf : WellFormed m s t w es)
    (he : e.getD 0 0 ≠ 0xFF) (hcond : ClearFirst t w es.length (cellsOf L)) :
    entrySlot t w (cellsOf L) = 0 ∧ mem (headCell t 0) = e.getD 0 0 ∧
      ∀ j < 300, j ≠ 0 → mem (headCell t j) = 0xFF := by
  have htwo := h.two_le_next
  have hslot : entrySlot t w (cellsOf L) = 0 := by
    rw [entrySlot]
    split_ifs with hlate
    · rfl
    · exact hcond.slot.resolve_right hlate
  refine ⟨hslot, ?_, fun j hj hne => ?_⟩
  · by_cases hlate : passed (cellsOf L) 0 (.next t) = passed (cellsOf L) 24 (.next t)
    · exact h.head_first hwf hlate
    · have hw := hcond.slot.resolve_right hlate
      have hhead := h.head_eq hwf he (if_neg hlate)
      rw [if_neg hcond.kept, hw] at hhead
      exact hhead
  · refine h.erased_of_ne hwf he hj (by rw [hslot]; exact hne.symm) fun hw _ hone => ?_
    rcases hcond.pointer with ⟨hp, -⟩ | ⟨hzero, -⟩
    · omega
    · omega

theorem started (h : Overlapped m s t e mem L W C) (hwf : WellFormed m s t w es)
    (he : e.getD 0 0 ≠ 0xFF) (hcond : ClearFirst t w es.length (cellsOf L)) : Started m t e mem := by
  have hnext := h.next_end hwf
  have hmoved := h.moved hwf
  obtain ⟨⟨-, hlow⟩, -, hhigh⟩ := h.pointer hwf
  obtain ⟨hslot, hfirst, hheads⟩ := h.ring_of_clearFirst hwf he hcond
  have htails := fun a (ha : a ≥ slotAddr t 0) (_ : a < slotAddr t 300) hhead =>
    h.tail_eq hwf hslot (a := a) (by rw [slotAddr_eq] at ha; omega) hhead
  rcases hcond.pointer with ⟨hp, hx3⟩ | ⟨hw, hx, hy⟩
  · obtain ⟨hstored, hx, hy⟩ := h.late hwf hp
    rw [if_pos hp] at hnext hmoved
    rw [if_pos hx3, hmoved] at hlow
    rw [hmoved, if_pos hstored, ← slotAddr_zero] at hhigh
    refine ⟨hnext, hlow, ?_, hfirst, hheads, htails⟩
    rw [hhigh]
    split_ifs
    · rfl
    · exact congrArg UInt8.ofNat (first_bytes t).1.symm
  · have hearly : passed (cellsOf L) 21 (.next t) ≠ passed (cellsOf L) 24 (.next t) := by
      intro hp
      have := (h.late hwf hp).2.1
      omega
    have hone : Ring.succ 300 w = 1 := by
      rw [hw]
      rfl
    have hstored : C.stored = slotAddr t 1 := by
      rcases h.stored_cases hwf with ⟨hx', -⟩ | ⟨-, -, hstored⟩ | ⟨hxy, -⟩
      · exact absurd hx hx'
      · rw [hstored, hone]
      · exact absurd hy (hxy.mp hx)
    have hne : C.stored ≠ 0xffff := hstored ▸ slotAddr_ne t (by omega)
    rw [if_neg hearly, hone] at hmoved
    rw [if_neg hearly, if_neg hne, hstored] at hnext
    rw [if_neg (by omega), if_neg hne, if_neg (by omega), hmoved] at hlow hhigh
    exact ⟨hnext, hlow, hhigh, hfirst, hheads, htails⟩

/-- Exactly these overlaps end as if the log had been cleared and then the entry written. -/
theorem started_iff (h : Overlapped m s t e mem L W C) (hwf : WellFormed m s t w es)
    (he : e.getD 0 0 ≠ 0xFF) : Started m t e mem ↔ ClearFirst t w es.length (cellsOf L) := by
  constructor
  · intro hend
    by_cases hp : passed (cellsOf L) 21 (.next t) = passed (cellsOf L) 24 (.next t)
    · exact h.clearFirst_of_late hwf he hend hp
    · exact h.clearFirst_of_early hwf he hend hp
  · exact h.started hwf he

end Overlapped

/-! ### The two orders -/

section Orders

variable {m : Eeprom} {s : Log} {t : LogType} {w : ℕ} {es : List Entry} {e : List UInt8}
  {mem mem' : ∀ l : Cell, l.Val} {late : Bool} {sched : List Bool}

/-- What the contents of a log are, cell by cell. -/
theorem sameLog_iff : SameLog t (contents mem) (contents mem') ↔
    mem (.next t) = mem' (.next t) ∧ mem (lowCell t) = mem' (lowCell t) ∧
      mem (highCell t) = mem' (highCell t) ∧
        ∀ a ≥ slotAddr t 0, a < slotAddr t 300 → mem' (.byte a) = mem (.byte a) := by
  have ht := logNextWAddr_eq t
  have htlt := t.isLt
  have hpointer (mem : ∀ l : Cell, l.Val) : at24cxxReadLenByte (contents mem).1 (logNextWAddr t) 2 =
      UInt8.toNat (mem (highCell t)) * 256 + UInt8.toNat (mem (lowCell t)) := by
    rw [readLenByte_two, readOneByte_eq _ (by omega), readOneByte_eq _ (by omega)]
    rfl
  rw [SameLog, hpointer, hpointer]
  have hbytes : UInt8.toNat (mem (highCell t)) * 256 + UInt8.toNat (mem (lowCell t)) =
      UInt8.toNat (mem' (highCell t)) * 256 + UInt8.toNat (mem' (lowCell t)) ↔
        mem (lowCell t) = mem' (lowCell t) ∧ mem (highCell t) = mem' (highCell t) := by
    have hlow := UInt8.toNat_lt (mem (lowCell t))
    have hlow' := UInt8.toNat_lt (mem' (lowCell t))
    rw [← UInt8.toNat_inj, ← UInt8.toNat_inj]
    omega
  rw [hbytes]
  constructor
  · rintro ⟨hring, ⟨hlow, hhigh⟩, hnext⟩
    exact ⟨hnext, hlow, hhigh, hring⟩
  · rintro ⟨hnext, hlow, hhigh, hring⟩
    exact ⟨hring, ⟨hlow, hhigh⟩, hnext⟩

theorem head_inRing {j : ℕ} (hj : j < 300) :
    slotAddr t j ≥ slotAddr t 0 ∧ slotAddr t j < slotAddr t 300 := by
  simp only [slotAddr_eq]
  omega

theorem Emptied.congr (h : Emptied m t w e mem') (hsame : SameLog t (contents mem) (contents mem')) :
    Emptied m t w e mem := by
  obtain ⟨hnext, hlow, hhigh, hring⟩ := sameLog_iff.mp hsame
  refine ⟨hnext.trans h.next, hlow.trans h.low, hhigh.trans h.high, fun j hj => ?_,
    fun a h0 h1 hhead => ?_⟩
  · obtain ⟨h0, h1⟩ := head_inRing (t := t) hj
    exact (hring _ h0 h1).symm.trans (h.heads j hj)
  · exact (hring a h0 h1).symm.trans (h.tails a h0 h1 hhead)

theorem Started.congr (h : Started m t e mem') (hsame : SameLog t (contents mem) (contents mem')) :
    Started m t e mem := by
  obtain ⟨hnext, hlow, hhigh, hring⟩ := sameLog_iff.mp hsame
  have hhead {j : ℕ} (hj : j < 300) : mem (headCell t j) = mem' (headCell t j) :=
    (hring _ (head_inRing (t := t) hj).1 (head_inRing hj).2).symm
  exact ⟨hnext.trans h.next, hlow.trans h.low, hhigh.trans h.high, (hhead (by omega)).trans h.first,
    fun j hj hne => (hhead hj).trans (h.heads j hj hne),
    fun a h0 h1 hno => (hring a h0 h1).symm.trans (h.tails a h0 h1 hno)⟩

theorem Emptied.sameLog (h : Emptied m t w e mem) (h' : Emptied m t w e mem') :
    SameLog t (contents mem) (contents mem') := by
  refine sameLog_iff.mpr ⟨h.next.trans h'.next.symm, h.low.trans h'.low.symm, h.high.trans h'.high.symm,
    fun a h0 h1 => ?_⟩
  by_cases hhead : ∃ j < 300, a = slotAddr t j
  · obtain ⟨j, hj, rfl⟩ := hhead
    exact (h'.heads j hj).trans (h.heads j hj).symm
  · push Not at hhead
    exact (h'.tails a h0 h1 hhead).trans (h.tails a h0 h1 hhead).symm

theorem Started.sameLog (h : Started m t e mem) (h' : Started m t e mem') :
    SameLog t (contents mem) (contents mem') := by
  refine sameLog_iff.mpr ⟨h.next.trans h'.next.symm, h.low.trans h'.low.symm, h.high.trans h'.high.symm,
    fun a h0 h1 => ?_⟩
  by_cases hhead : ∃ j < 300, a = slotAddr t j
  · obtain ⟨j, hj, rfl⟩ := hhead
    by_cases hzero : j = 0
    · rw [hzero]
      exact h'.first.trans h.first.symm
    · exact (h'.heads j hj hzero).trans (h.heads j hj hzero).symm
  · push Not at hhead
    exact (h'.tails a h0 h1 hhead).trans (h.tails a h0 h1 hhead).symm

/-- The bytes that `WriteLog` stores begin with no erased byte. -/
theorem TimeStr.entry_head (time : TimeStr) (flag : UInt8) :
    (time.bytes ++ [flag]).getD 0 0 ≠ 0xFF := by
  have hwritten := (time.entry flag).written
  rw [List.headD_eq_getD] at hwritten
  exact hwritten

/-- With `WriteLog` first the log is empty. -/
theorem emptied_serial (h : WellFormed m s t w es) (time : TimeStr) (flag : UInt8) :
    Emptied m t w (time.bytes ++ [flag]) (cells (serial m s t time.bytes flag false).1
      (serial m s t time.bytes flag false).2.nextWriteAddrVal) := by
  have hwoven := woven_serial (race m s t time.bytes flag).prog (race m s t time.bytes flag).mem false
  rw [exec_race] at hwoven
  obtain ⟨W, C, hrun⟩ := exists_overlapped time.size hwoven
  refine (hrun.emptied_iff h (TimeStr.entry_head time flag)).mpr ?_
  have hwrite := hrun.write
  have htwo := hrun.two_le_next
  simp only [Bool.not_false] at hwrite htwo ⊢
  generalize ((race m s t time.bytes flag).prog true).turns _ = first at hwrite htwo ⊢
  generalize ((race m s t time.bytes flag).prog false).turns _ = second at hwrite htwo ⊢
  have hlength : first.length = 24 := by
    have hown : own true (second.map (false, ·)) = [] := own_map_not second
    rw [own_append, own_map_self, hown, List.append_nil] at hwrite
    rw [hwrite, WriteTurns.turns]
    simp [time.size]
  have hzero (i : ℕ) (hi : i < 24) (x : Cell) :
      passed (cellsOf (first.map (true, ·) ++ second.map (false, ·))) i x = 0 :=
    passed_serial_zero x first i (hlength ▸ hi)
  refine ⟨?_, ?_, ?_, ?_, ?_⟩
  · rw [hzero 21 (by omega)]
    omega
  · rw [Wiped, hzero 1 (by omega)]
    split_ifs <;> omega
  · rw [hzero 22 (by omega), hzero 23 (by omega)]
    omega
  · rw [hzero 22 (by omega)]
    omega
  · rw [hzero 23 (by omega)]
    omega

/-- With `FastClearLog` first it holds the one entry. -/
theorem started_serial (h : WellFormed m s t w es) (time : TimeStr) (flag : UInt8) :
    Started m t (time.bytes ++ [flag]) (cells (serial m s t time.bytes flag true).1
      (serial m s t time.bytes flag true).2.nextWriteAddrVal) := by
  have hwoven := woven_serial (race m s t time.bytes flag).prog (race m s t time.bytes flag).mem true
  rw [exec_race] at hwoven
  obtain ⟨W, C, hrun⟩ := exists_overlapped time.size hwoven
  have hhead := TimeStr.entry_head time flag
  refine (hrun.started_iff h hhead).mpr ?_
  simp only [Bool.not_true] at hrun ⊢
  generalize ((race m s t time.bytes flag).prog true).turns _ = second at hrun ⊢
  generalize ((race m s t time.bytes flag).prog false).turns _ = first at hrun ⊢
  have hsame (i j : ℕ) (x : Cell) :
      passed (cellsOf (first.map (false, ·) ++ second.map (true, ·))) i x =
        passed (cellsOf (first.map (false, ·) ++ second.map (true, ·))) j x := by
    rw [passed_serial, passed_serial]
  have hthree : passed (cellsOf (first.map (false, ·) ++ second.map (true, ·))) 22 (lowCell t) = 3 := by
    rw [hsame 22 24, hrun.passed_end, (ClearTurns.changes_pointer hrun.ok (hrun.inRing h)).1.2,
      if_pos (hrun.late h (hsame ..)).1]
    rfl
  exact ⟨hrun.not_wiped h hhead (hsame ..), .inr (hsame ..), .inl ⟨hsame .., hthree⟩⟩

/-- The turns of a run, each with its cell. -/
def raceTurns (m : Eeprom) (s : Log) (t : LogType) (rtcTempStr : List UInt8) (alarmFlag : UInt8)
    (sched : List Bool) : List (Bool × Cell) :=
  cellsOf (turns (race m s t rtcTempStr alarmFlag) sched)

/-- Which overlaps end as if the calls had come one after the other, and how. Where they do, the log is
    afterwards a ring of at most one entry. -/
theorem raced_iff (h : WellFormed m s t w es) (time : TimeStr) (flag : UInt8)
    (hdone : Finished m s t time.bytes flag sched) :
    (SameLog t (raced m s t time.bytes flag sched) ((serial m s t time.bytes flag false).1,
          (serial m s t time.bytes flag false).2.nextWriteAddrVal) ↔
        WriteFirst t w es.length (raceTurns m s t time.bytes flag sched)) ∧
      (SameLog t (raced m s t time.bytes flag sched) ((serial m s t time.bytes flag true).1,
          (serial m s t time.bytes flag true).2.nextWriteAddrVal) ↔
        ClearFirst t w es.length (raceTurns m s t time.bytes flag sched)) ∧
      (Serialisable m s t time.bytes flag sched → ∃ es' : List Entry, es'.length ≤ 1 ∧
        WellFormed (raced m s t time.bytes flag sched).1
          { s with nextWriteAddrVal := (raced m s t time.bytes flag sched).2 } t es'.length es') := by
  obtain ⟨W, C, hrun⟩ := exists_overlapped time.size
    (woven_turns sched (race m s t time.bytes flag) fun b => Prog.eq_done (hdone b))
  have hhead := TimeStr.entry_head time flag
  have hsame (late : Bool) : SameLog t (raced m s t time.bytes flag sched)
      ((serial m s t time.bytes flag late).1, (serial m s t time.bytes flag late).2.nextWriteAddrVal) ↔
        SameLog t (raced m s t time.bytes flag sched)
          (contents (cells (serial m s t time.bytes flag late).1
            (serial m s t time.bytes flag late).2.nextWriteAddrVal)) := Iff.rfl
  refine ⟨?_, ?_, ?_⟩
  · have hserial := emptied_serial h time flag
    rw [hsame, raceTurns, ← hrun.emptied_iff h hhead]
    exact ⟨hserial.congr, fun hend => hend.sameLog hserial⟩
  · have hserial := started_serial h time flag
    rw [hsame, raceTurns, ← hrun.started_iff h hhead]
    exact ⟨hserial.congr, fun hend => hend.sameLog hserial⟩
  · rintro ⟨late, hring, hpointer, hnext⟩
    obtain ⟨es', hlen, hserial⟩ := h.serial time flag late
    have hstored := hserial.toStored.congr (fun x h0 h1 => (hring x h0 h1).symm) hpointer
    exact ⟨es', hlen, { toStored := hstored, next := hnext.trans hserial.next }⟩

/-- `WriteLog` has read its slot when the whole `FastClearLog` comes. In an empty log that does no
    harm. -/
theorem raced_iff_new : SameLog .BOPN
    (raced (logInit newEeprom powerOn).1 (logInit newEeprom powerOn).2 .BOPN TimeStr.sample.bytes 1
      ([true] ++ List.replicate 22 false ++ List.replicate 23 true))
    ((serial (logInit newEeprom powerOn).1 (logInit newEeprom powerOn).2 .BOPN
        TimeStr.sample.bytes 1 true).1,
      (serial (logInit newEeprom powerOn).1 (logInit newEeprom powerOn).2 .BOPN
        TimeStr.sample.bytes 1 true).2.nextWriteAddrVal) :=
  (raced_iff ((erased_newEeprom .BOPN).logInit powerOn) .sample 1 (by decide +kernel)).2.1.mpr
    ⟨by decide +kernel, .inl rfl, .inl (by decide +kernel)⟩

end Orders

end Log

end VectorFence
