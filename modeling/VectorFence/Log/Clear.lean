import VectorFence.Lib.Run
import VectorFence.Log.History

/-! Clearing a log. `FastClearLog` erases the stored pointer and the first byte of the slots in use,
    then starts the logs again:

        pointer := 0xffff ──▶ first bytes := 0xFF ──▶ Log_Init ──▶ pointer := base

    How many slots are in use is told by the byte at the write pointer: written, and the ring has been
    full, so all 300; erased, and the slots below the pointer are. -/

namespace VectorFence

namespace Log

open Eeprom Ring

/-- `FastEraseLogEEProm`: the loop runs until the 16-bit length is zero, at most `fuel` turns. -/
def fastEraseLogEEProm : ℕ → Eeprom → ℕ → ℕ → Eeprom
  | 0, m, _, _ => m
  | fuel + 1, m, eraseAddr, eraseLen =>
      if eraseLen = 0 then m
      else fastEraseLogEEProm fuel (at24cxxWriteOneByte m eraseAddr 0xFF)
        ((eraseAddr + eachLogSize) % 0x10000) ((eraseLen + 0x10000 - eachLogSize) % 0x10000)

/-- The length `FastClearLog` erases, as the 16-bit parameter receives it. -/
def eraseLen (t : LogType) (next : ℕ) (b : UInt8) : ℕ :=
  if b ≠ 0xFF then eachTypeLogBlockSize else u32 (next - eachTypeLogBasedAddr t) % 0x10000

/-- `FastClearLog`. -/
def fastClearLog (m : Eeprom) (s : Log) (t : LogType) : Eeprom × Log :=
  let m := eraseEEProm m (logNextWAddr t) 2
  let b := at24cxxReadOneByte m (s.nextWriteAddrVal t)
  let m := fastEraseLogEEProm 0x10000 m (eachTypeLogBasedAddr t) (eraseLen t (s.nextWriteAddrVal t) b)
  logInit m { s with crtWebPageLogData := [] }

/-- `Log_Init` sets the write pointers and the directions. -/
theorem logInit_frame (m : Eeprom) (s : Log) : ∃ next, (logInit m s).2 =
    { s with nextWriteAddrVal := next, lastWebPageReadDir := .down, lastLCDPageReadDir := .down } := by
  have hfold : ∃ next, ((List.finRange 5).foldl logInitType (m,
    s)).2 = { s with nextWriteAddrVal := next } := by
    refine Run.foldl_inv (fun ms : Eeprom × Log => ∃ next, ms.2 = { s with nextWriteAddrVal := next })
      (fun ms u h => ?_) (List.finRange 5) (m, s) ⟨_, rfl⟩
    obtain ⟨next, hnext⟩ := h
    simp only [logInitType]
    split_ifs
    · exact ⟨_, by rw [hnext]; rfl⟩
    · exact ⟨_, by rw [hnext]; rfl⟩
  obtain ⟨next, hnext⟩ := hfold
  exact ⟨next, by simp only [logInit, hnext]⟩

/-! ### What is erased -/

section Clear

variable {m : Eeprom} {s : Log} {t : LogType} {w : ℕ} {es : List Entry}

/-- The lengths that occur are whole slots, so the loop ends; it erases their first bytes. -/
theorem fastEraseLogEEProm_apply : ∀ (n fuel : ℕ) (m : Eeprom) (a : ℕ), n ≤ fuel →
    a + eachLogSize * n < 0x10000 → ∀ x,
    fastEraseLogEEProm fuel m a (eachLogSize * n) x =
      if ∃ k < n, x = a + eachLogSize * k then 0xFF else m x
  | 0, 0, m, a, _, _, x => by rw [fastEraseLogEEProm, if_neg (by simp)]
  | 0, fuel + 1, m, a, _, _, x => by
      rw [fastEraseLogEEProm, if_pos (by rw [Nat.mul_zero]), if_neg (by simp)]
  | n + 1, fuel + 1, m, a, hf, hb, x => by
      rw [eachLogSize] at hb
      have hlen : (eachLogSize * (n + 1) + 0x10000 - eachLogSize) % 0x10000 = eachLogSize * n := by
        rw [eachLogSize]; omega
      have haddr : (a + eachLogSize) % 0x10000 = a + eachLogSize := by rw [eachLogSize]; omega
      have ih := fastEraseLogEEProm_apply n fuel (at24cxxWriteOneByte m a 0xFF) (a + eachLogSize)
        (by omega) (by rw [eachLogSize]; omega) x
      rw [fastEraseLogEEProm, if_neg (by rw [eachLogSize]; omega), hlen, haddr, ih,
        writeOneByte_apply m (by omega)]
      by_cases hx : x = a
      · rw [if_pos hx, ite_self, if_pos ⟨0, by omega, by rw [hx, Nat.mul_zero, Nat.add_zero]⟩]
      · rw [if_neg hx]
        refine if_congr ⟨?_, ?_⟩ rfl rfl
        · rintro ⟨k, hk, rfl⟩
          exact ⟨k + 1, by omega, by rw [eachLogSize]; omega⟩
        · rintro ⟨k, hk, rfl⟩
          obtain ⟨j, rfl⟩ := Nat.exists_eq_succ_of_ne_zero (show k ≠ 0 by rintro rfl; simp at hx)
          exact ⟨j, by omega, by rw [eachLogSize]; omega⟩

/-- With the pointer on slot `w` whole slots are erased: all of them, or those below `w`. -/
theorem eraseLen_slotAddr (hw : w < 300) (b : UInt8) :
    eraseLen t (slotAddr t w) b = eachLogSize * if b ≠ 0xFF then 300 else w := by
  have hu : u32 (slotAddr t w - eachTypeLogBasedAddr t) = 20 * w := by
    refine u32_eq ?_ (by omega)
    rw [slotAddr_eq, base_eq]; push_cast; ring
  rw [eraseLen]
  by_cases hb : b ≠ 0xFF
  · rw [if_pos hb, if_pos hb]
    rfl
  · rw [if_neg hb, if_neg hb, hu, eachLogSize]
    omega

theorem erasePointer_apply (m : Eeprom) (t : LogType) (x : ℕ) :
    eraseEEProm m (logNextWAddr t) 2 x =
      if x = logNextWAddr t ∨ x = logNextWAddr t + 1 then 0xFF else m x := by
  have ht := logNextWAddr_eq t
  have hlt := t.isLt
  rw [eraseEEProm, eraseEEProm, eraseEEProm, writeOneByte_apply _ (by omega),
    writeOneByte_apply _ (by omega)]
  by_cases h1 : x = logNextWAddr t + 1
  · rw [if_pos h1, if_pos (Or.inr h1)]
  · rw [if_neg h1]
    exact if_congr (or_iff_left h1).symm rfl rfl

/-- Below the rings only the pointer is erased. -/
theorem erased_below (m : Eeprom) {w : ℕ} (hw : w < 300) (b : UInt8) {x : ℕ} (hx : x < 0x100) :
    fastEraseLogEEProm 0x10000 (eraseEEProm m (logNextWAddr t) 2) (eachTypeLogBasedAddr t)
        (eraseLen t (slotAddr t w) b) x =
      if x = logNextWAddr t ∨ x = logNextWAddr t + 1 then 0xFF else m x := by
  have hbase := base_eq t
  have hlt := t.isLt
  rw [eraseLen_slotAddr hw, fastEraseLogEEProm_apply _ _ _ _ (by split_ifs <;> omega)
    (by rw [eachLogSize]; split_ifs <;> omega), if_neg, erasePointer_apply]
  rintro ⟨k, -, rfl⟩
  omega

/-- The byte at the pointer tells whether the ring has been full. -/
theorem WellFormed.at_next (h : WellFormed m s t w es) :
    m (slotAddr t w) ≠ 0xFF ↔ es.length = 300 := by
  constructor
  · intro hne
    by_contra hlen
    exact hne (h.fresh (by have := h.length_le; omega) w le_rfl h.lt)
  · intro hlen
    have hhead := h.head (a := 299) (by omega)
    have hback : back 300 w (299 + 1) = w := by rw [back, if_neg (by have := h.lt; omega)]; omega
    rw [hback] at hhead
    rw [hhead]
    exact es[299].written

/-- After the erasing nothing is left of the log. -/
theorem WellFormed.erased (h : WellFormed m s t w es) :
    Erased (fastEraseLogEEProm 0x10000 (eraseEEProm m (logNextWAddr t) 2) (eachTypeLogBasedAddr t)
      (eraseLen t (s.nextWriteAddrVal t)
        (at24cxxReadOneByte (eraseEEProm m (logNextWAddr t) 2) (s.nextWriteAddrVal t)))) t := by
  have hw := h.lt
  have ht := logNextWAddr_eq t
  have htlt := t.isLt
  have hslot (k : ℕ) : slotAddr t k ≠ logNextWAddr t ∧ slotAddr t k ≠ logNextWAddr t + 1 := by
    rw [slotAddr_eq]; omega
  have hb : at24cxxReadOneByte (eraseEEProm m (logNextWAddr t) 2) (slotAddr t w) = m
    (slotAddr t w) := by
    rw [readOneByte_eq _ (by have := slotAddr_lt t hw.le; omega), erasePointer_apply,
      if_neg (by have := hslot w; tauto)]
  rw [h.next, hb, eraseLen_slotAddr hw]
  refine ⟨?_, fun k hk => ?_⟩
  · rw [← eraseLen_slotAddr hw, readLenByte_two, readOneByte_eq _ (by omega),
      readOneByte_eq _ (by omega),
      erased_below m hw _ (by omega), erased_below m hw _ (by omega), if_pos (Or.inr rfl),
      if_pos (Or.inl rfl)]
    rfl
  · rw [fastEraseLogEEProm_apply _ _ _ _ (by split_ifs <;> omega)
      (by rw [base_eq, eachLogSize]; split_ifs <;> omega)]
    by_cases hin : k < if m (slotAddr t w) ≠ 0xFF then 300 else w
    · exact if_pos ⟨k, hin, rfl⟩
    · have hnot : ¬∃ j < if m (slotAddr t w) ≠ 0xFF then 300 else w,
          slotAddr t k = eachTypeLogBasedAddr t + eachLogSize * j := by
        rintro ⟨j, hj, hkj⟩
        exact hin (slotAddr_inj.mp hkj ▸ hj)
      rw [if_neg hnot, erasePointer_apply, if_neg (by have := hslot k; tauto)]
      by_cases hfull : m (slotAddr t w) ≠ 0xFF
      · rw [if_pos hfull] at hin
        exact absurd hk hin
      · rw [if_neg hfull] at hin
        have hlen : es.length < 300 := by
          have := h.length_le
          have := mt h.at_next.mpr hfull
          omega
        exact h.fresh hlen k (by omega) hk

/-- Clearing leaves the empty history. -/
theorem WellFormed.fastClearLog (h : WellFormed m s t w es) :
    WellFormed (Log.fastClearLog m s t).1 (Log.fastClearLog m s t).2 t 0 [] :=
  h.erased.logInit _

end Clear

/-! ### The pointers -/

/-- Every write pointer is on a slot of its ring, and so it is stored. -/
def PointersOk (m : Eeprom) (s : Log) : Prop :=
  ∀ t, ∃ w < 300, s.nextWriteAddrVal t = slotAddr t w ∧
    at24cxxReadLenByte m (logNextWAddr t) 2 = slotAddr t w

section Pointers

variable {m m' : Eeprom} {s : Log}

theorem pointersOk_of_wellFormed (h : ∀ t, ∃ w es, WellFormed m s t w es) : PointersOk m s := by
  intro t
  obtain ⟨w, es, hw⟩ := h t
  exact ⟨w, hw.lt, hw.next, hw.stored⟩

/-- The stored pointers are the ten bytes before `0xEA`. -/
theorem readPointer_congr (h : ∀ x, 0xE0 ≤ x → x < 0xEA → m' x = m x) (t : LogType) :
    at24cxxReadLenByte m' (logNextWAddr t) 2 = at24cxxReadLenByte m (logNextWAddr t) 2 := by
  have ht := logNextWAddr_eq t
  have hlt := t.isLt
  rw [readLenByte_two, readLenByte_two, readOneByte_eq _ (by omega), readOneByte_eq _ (by omega),
    readOneByte_eq _ (by omega), readOneByte_eq _ (by omega), h _ (by omega) (by omega),
    h _ (by omega) (by omega)]

theorem PointersOk.congr (h : PointersOk m s) (hm : ∀ x, 0xE0 ≤ x → x < 0xEA → m' x = m x) :
    PointersOk m' s := by
  intro t
  obtain ⟨w, hw, hnext, hstored⟩ := h t
  exact ⟨w, hw, hnext, (readPointer_congr hm t).trans hstored⟩

/-- `Log_Init` writes pointers only. -/
theorem logInit_below (m : Eeprom) (s : Log) {x : ℕ} (hx : x < 0xE0) : (logInit m s).1 x = m x := by
  have hstep (ms : Eeprom × Log) (t : LogType) (h : ms.1 x = m x) : (logInitType ms t).1 x = m x := by
    have ht := logNextWAddr_eq t
    have hlt := t.isLt
    simp only [logInitType]
    split_ifs
    · exact (writeLenByte_two_apply _ (by omega) _ (by omega) (by omega)).trans h
    · exact h
  simp only [Log.logInit]
  exact Run.foldl_inv (fun ms : Eeprom × Log => ms.1 x = m x) hstep (List.finRange 5) (m, s) rfl

/-- `Log_Init` after the pointer of one log was erased. -/
theorem PointersOk.logInit {t : LogType} (h : PointersOk m s) (s' : Log)
    (herase : ∀ x < 0x100, m' x = if x = logNextWAddr t ∨ x = logNextWAddr t + 1 then 0xFF else m x) :
    PointersOk (Log.logInit m' s').1 (Log.logInit m' s').2 := by
  intro u
  have ht := logNextWAddr_eq t
  have hu := logNextWAddr_eq u
  have htlt := t.isLt
  have hult := u.isLt
  by_cases hut : u = t
  · have hff : at24cxxReadLenByte m' (logNextWAddr u) 2 = 0xffff := by
      rw [readLenByte_two, readOneByte_eq _ (by omega), readOneByte_eq _ (by omega),
        herase _ (by omega), herase _ (by omega), hut, if_pos (Or.inr rfl), if_pos (Or.inl rfl)]
      rfl
    obtain ⟨-, hq, hn⟩ := logInit_spec m' s' u hff
    rw [bootPointer, if_pos rfl, ← slotAddr_zero] at hq hn
    exact ⟨0, by norm_num, hn, hq⟩
  · obtain ⟨w, hw, -, hstored⟩ := h u
    have hne : (u : ℕ) ≠ t := fun he => hut (Fin.ext he)
    have hsame : at24cxxReadLenByte m' (logNextWAddr u) 2 = slotAddr u w := by
      rw [← hstored, readLenByte_two, readLenByte_two, readOneByte_eq _ (by omega),
        readOneByte_eq _ (by omega), readOneByte_eq _ (by omega), readOneByte_eq _ (by omega),
        herase _ (by omega), herase _ (by omega), if_neg (by omega), if_neg (by omega)]
    obtain ⟨-, hq, hn⟩ := logInit_spec m' s' u hsame
    rw [bootPointer_of_ne (by have := slotAddr_lt u hw.le; omega)] at hq hn
    exact ⟨w, hw, hn, hq⟩

/-- Clearing a log keeps the pointers on slots and leaves what is below the logs alone. -/
theorem PointersOk.fastClearLog (h : PointersOk m s) (t : LogType) :
    PointersOk (Log.fastClearLog m s t).1 (Log.fastClearLog m s t).2 ∧
      ∀ x < 0xE0, (Log.fastClearLog m s t).1 x = m x := by
  obtain ⟨w, hw, hnext, -⟩ := h t
  have ht := logNextWAddr_eq t
  simp only [Log.fastClearLog, hnext]
  refine ⟨h.logInit _ fun x hx => erased_below m hw _ hx, fun x hx => ?_⟩
  rw [logInit_below _ _ hx, erased_below m hw _ (by omega), if_neg (by omega)]

end Pointers

end Log

end VectorFence
