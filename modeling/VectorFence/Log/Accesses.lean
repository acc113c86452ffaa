import VectorFence.Log.Browsers
import VectorFence.Log.Clear

/-! Which bytes of the EEPROM the functions of `log.c` touch. A log has an area of its own, the two
    bytes of its pointer and its ring:

        0xE0      0xEA    0x100   0x1870   0x2FE0   0x4750   0x5EC0  0x7630
          pointers          BOPN │  BIVD  │  AOPN  │  AIVD  │   FC  │

    A function that is asked for a log and ends with `Log_Init` looks at the pointers of all logs.
    It writes another log's pointer only when it finds `0xffff` there, which no pointer in use is. -/

namespace VectorFence

namespace Log

open Eeprom

/-- What is handed to `24cxx.c`: an address and the number of bytes from there on. -/
inductive Access where
  | read (addr len : ℕ)
  | write (addr len : ℕ)
  deriving DecidableEq, Repr

/-- The bytes are in the ring of a log. -/
def InBlock (t : LogType) (addr len : ℕ) : Prop :=
  eachTypeLogBasedAddr t ≤ addr ∧ addr + len ≤ eachTypeLogBasedAddr t + eachTypeLogBlockSize

instance (t : LogType) (addr len : ℕ) : Decidable (InBlock t addr len) :=
  inferInstanceAs (Decidable (_ ∧ _))

/-- Reads are in the ring of the log or among the pointers, writes in the ring or in the log's own
    pointer. -/
def Access.Own (t : LogType) : Access → Prop
  | .read addr len =>
      InBlock t addr len ∨ logBlockStartAddr ≤ addr ∧ addr + len ≤ logBlockStartAddr + 10
  | .write addr len => InBlock t addr len ∨ logNextWAddr t ≤ addr ∧ addr + len ≤ logNextWAddr t + 2

/-- An address that is written to. -/
def Written (l : List Access) (x : ℕ) : Prop :=
  ∃ addr len, .write addr len ∈ l ∧ addr ≤ x ∧ x < addr + len

/-! ### The accesses of a function -/

/-- The entries of a page, and the byte that `isLogFull` looks at. -/
def pageAccesses (m : Eeprom) (t : LogType) (b : Browser) (c : PageCmd) (s : Log) : List Access :=
  .read (eachTypeLogMaxAddr t) 1 :: (reads m t b c s).map fun a => .read a eachLogSize

def writeLogAccesses (s : Log) (t : LogType) : List Access :=
  [.write (s.nextWriteAddrVal t) eachLogSize, .write (logNextWAddr t) 2]

/-- The addresses `FastEraseLogEEProm` writes to, turn by turn. -/
def eraseAddrs : ℕ → ℕ → ℕ → List ℕ
  | 0, _, _ => []
  | fuel + 1, eraseAddr, eraseLen =>
      if eraseLen = 0 then []
      else eraseAddr :: eraseAddrs fuel ((eraseAddr + eachLogSize) % 0x10000)
        ((eraseLen + 0x10000 - eachLogSize) % 0x10000)

/-- The turns of `Log_Init`'s loop. -/
def initAccesses : List LogType → Eeprom × Log → List Access
  | [], _ => []
  | u :: us, ms =>
    .read (logNextWAddr u) 2 ::
      ((if at24cxxReadLenByte ms.1 (logNextWAddr u) 2 = 0xffff then
      [.write (logNextWAddr u) 2] else []) ++
        initAccesses us (logInitType ms u))

def clearAccesses (m : Eeprom) (s : Log) (t : LogType) : List Access :=
  let m := eraseEEProm m (logNextWAddr t) 2
  let len := eraseLen t (s.nextWriteAddrVal t) (at24cxxReadOneByte m (s.nextWriteAddrVal t))
  let erased := fastEraseLogEEProm 0x10000 m (eachTypeLogBasedAddr t) len
  .write (logNextWAddr t) 2 :: .read (s.nextWriteAddrVal t) 1 ::
    ((eraseAddrs 0x10000 (eachTypeLogBasedAddr t) len).map (.write · 1) ++
      initAccesses (List.finRange 5) (erased, { s with crtWebPageLogData := [] }))

section Accesses

variable {m : Eeprom} {s : Log} {t : LogType} {x : ℕ}

theorem Written.cons {a : Access} {l : List Access} (h : Written l x) : Written (a :: l) x := by
  obtain ⟨addr, len, hmem, hx⟩ := h
  exact ⟨addr, len, List.mem_cons_of_mem _ hmem, hx⟩

theorem Written.right {l l' : List Access} (h : Written l' x) : Written (l ++ l') x := by
  obtain ⟨addr, len, hmem, hx⟩ := h
  exact ⟨addr, len, List.mem_append_right _ hmem, hx⟩

/-! #### Clearing -/

/-- The loop writes to the addresses of its turns. -/
theorem fastEraseLogEEProm_eq : ∀ (fuel : ℕ) (m : Eeprom) (a len : ℕ), fastEraseLogEEProm fuel m a len =
    (eraseAddrs fuel a len).foldl (fun m a => at24cxxWriteOneByte m a 0xFF) m
  | 0, _, _, _ => rfl
  | fuel + 1, m, a, len => by
      rw [fastEraseLogEEProm, eraseAddrs]
      split_ifs
      · rfl
      · exact fastEraseLogEEProm_eq fuel _ _ _

theorem fastErase_unwritten {fuel a len : ℕ} (hlt : ∀ y ∈ eraseAddrs fuel a len, y < 0x10000)
    (hx : x ∉ eraseAddrs fuel a len) : fastEraseLogEEProm fuel m a len x = m x := by
  rw [fastEraseLogEEProm_eq]
  refine Run.foldl_inv_of_mem (fun m' : Eeprom => m' x = m x) (fun y hy m' hsame => ?_) rfl
  have hne : x ≠ y := by
    rintro rfl
    exact hx hy
  rw [writeOneByte_apply m' (hlt y hy), if_neg hne]
  exact hsame

/-- With whole slots they are the first addresses of slots, one after the other. -/
theorem mem_eraseAddrs : ∀ (n fuel a : ℕ), a + eachLogSize * n < 0x10000 →
    ∀ y ∈ eraseAddrs fuel a (eachLogSize * n), ∃ k < n, y = a + eachLogSize * k
  | _, 0, _, _, _, hy => by simp [eraseAddrs] at hy
  | 0, fuel + 1, a, _, y, hy => by simp [eraseAddrs] at hy
  | n + 1, fuel + 1, a, hb, y, hy => by
      rw [eachLogSize] at hb
      have hlen : (eachLogSize * (n + 1) + 0x10000 - eachLogSize) % 0x10000 = eachLogSize * n := by
        rw [eachLogSize]
        omega
      have haddr : (a + eachLogSize) % 0x10000 = a + eachLogSize := by
        rw [eachLogSize]
        omega
      rw [eraseAddrs, if_neg (by rw [eachLogSize]; omega), hlen, haddr, List.mem_cons] at hy
      rcases hy with rfl | hy
      · exact ⟨0, by omega, by rw [Nat.mul_zero, Nat.add_zero]⟩
      · obtain ⟨k, hk, rfl⟩ := mem_eraseAddrs n fuel (a + eachLogSize) (by rw [eachLogSize]; omega) y hy
        exact ⟨k + 1, by omega, by rw [eachLogSize]; omega⟩

/-- What the turns of `Log_Init` do not write to keeps its byte. -/
theorem logInit_unwritten (us : List LogType) (ms : Eeprom × Log)
    (h : ¬Written (initAccesses us ms) x) :
    (us.foldl logInitType ms).1 x = ms.1 x := by
  induction us generalizing ms with
  | nil => rfl
  | cons u us ih =>
    have hrest : ¬Written (initAccesses us (logInitType ms u)) x := fun hw => h hw.right.cons
    rw [List.foldl_cons, ih _ hrest, logInitType]
    split_ifs with hff
    · have hu := logNextWAddr_eq u
      have hult := u.isLt
      have hout : ¬(logNextWAddr u ≤ x ∧ x < logNextWAddr u + 2) := by
        rintro hin
        refine h ⟨logNextWAddr u, 2, ?_, hin⟩
        rw [initAccesses, if_pos hff]
        exact List.mem_cons_of_mem _ (List.mem_append_left _ (List.mem_singleton_self _))
      exact writeLenByte_two_apply ms.1 (by omega) _ (by omega) (by omega)
    · rfl

/-- Where the pointers of the other logs are in use, `Log_Init` writes this log's alone. -/
theorem initAccesses_own (us : List LogType) (ms : Eeprom × Log)
    (h : ∀ u ∈ us, u ≠ t → at24cxxReadLenByte ms.1 (logNextWAddr u) 2 ≠ 0xffff) :
    ∀ a ∈ initAccesses us ms, a.Own t := by
  induction us generalizing ms with
  | nil => simp [initAccesses]
  | cons u us ih =>
    have hrest : ∀ v ∈ us, v ≠ t →
        at24cxxReadLenByte (logInitType ms u).1 (logNextWAddr v) 2 ≠ 0xffff := by
      intro v hv hvt
      by_cases hvu : v = u
      · subst hvu
        rw [(logInitType_self ms rfl).2.1]
        exact bootPointer_ne v _
      · rw [(logInitType_ne ms (Ne.symm hvu)).2.1]
        exact h v (List.mem_cons_of_mem u hv) hvt
    intro a ha
    rw [initAccesses, List.mem_cons, List.mem_append] at ha
    rcases ha with rfl | ha | ha
    · have hu := logNextWAddr_eq u
      have hult := u.isLt
      rw [Access.Own, logBlockStartAddr]
      right
      omega
    · split_ifs at ha with hff
      · obtain rfl := List.mem_singleton.mp ha
        have hut : u = t := by
          by_contra hne
          exact h u List.mem_cons_self hne hff
        rw [hut]
        exact Or.inr ⟨le_rfl, le_rfl⟩
      · exact absurd ha List.not_mem_nil
    · exact ih _ hrest a ha

/-- The pointers of the other logs are not erased. -/
theorem readPointer_erased (m : Eeprom) {w : ℕ} (hw : w < 300) (b : UInt8) {u : LogType} (h : u ≠ t) :
    at24cxxReadLenByte (fastEraseLogEEProm 0x10000 (eraseEEProm m (logNextWAddr t) 2)
    (eachTypeLogBasedAddr t)
      (eraseLen t (slotAddr t w) b)) (logNextWAddr u) 2 = at24cxxReadLenByte m (logNextWAddr u) 2 := by
  have hu := logNextWAddr_eq u
  have ht := logNextWAddr_eq t
  have hult := u.isLt
  have hne : (u : ℕ) ≠ t := fun he => h (Fin.ext he)
  rw [readLenByte_two, readLenByte_two, readOneByte_eq _ (by omega), readOneByte_eq _ (by omega),
    readOneByte_eq _ (by omega), readOneByte_eq _ (by omega), erased_below m hw _ (by omega),
    erased_below m hw _ (by omega), if_neg (by omega), if_neg (by omega)]

/-- Clearing a log stays in its area. -/
theorem clear_own (h : PointersOk m s) (t : LogType) : ∀ a ∈ clearAccesses m s t, a.Own t := by
  obtain ⟨w, hw, hnext, -⟩ := h t
  have hslot := slotAddr_eq t w
  have hbase := base_eq t
  intro a ha
  rw [clearAccesses, List.mem_cons, List.mem_cons, List.mem_append, hnext] at ha
  rcases ha with rfl | rfl | ha | ha
  · exact Or.inr ⟨le_rfl, le_rfl⟩
  · refine Or.inl ⟨?_, ?_⟩
    · omega
    · rw [eachTypeLogBlockSize, eachTypeLogTotal, eachLogSize]
      omega
  · obtain ⟨y, hy, rfl⟩ := List.mem_map.mp ha
    rw [eraseLen_slotAddr hw] at hy
    obtain ⟨k, hk, rfl⟩ := mem_eraseAddrs _ _ _ (by rw [eachLogSize]; split_ifs <;> omega) y hy
    have hk' : k < 300 := hk.trans_le (by split_ifs <;> omega)
    rw [eachLogSize]
    refine Or.inl ⟨by omega, ?_⟩
    rw [eachTypeLogBlockSize, eachTypeLogTotal, eachLogSize]
    omega
  · refine initAccesses_own _ _ (fun u _ hut => ?_) a ha
    obtain ⟨v, hv, -, hstored⟩ := h u
    have hlt := slotAddr_lt u hv.le
    have hsame := readPointer_erased m hw
      (at24cxxReadOneByte (eraseEEProm m (logNextWAddr t) 2) (slotAddr t w)) hut
    exact hsame.trans_ne (by omega)

/-- What `ClearLog` does not write to keeps its byte. -/
theorem clear_unwritten (h : PointersOk m s) (hx : ¬Written (clearAccesses m s t) x) :
    (fastClearLog m s t).1 x = m x := by
  obtain ⟨w, hw, hnext, -⟩ := h t
  have hrest := fun hw => hx (Written.cons (Written.cons hw))
  have ht := logNextWAddr_eq t
  have hbase := base_eq t
  have htlt := t.isLt
  have hpointer : ¬(x = logNextWAddr t ∨ x = logNextWAddr t + 1) := by
    intro hin
    exact hx ⟨logNextWAddr t, 2, List.mem_cons_self, by omega, by omega⟩
  simp only [fastClearLog, logInit]
  refine (logInit_unwritten _ _ (fun hw => hrest hw.right)).trans ?_
  refine (fastErase_unwritten (fun a ha => ?_) fun ha => ?_).trans ?_
  · rw [hnext, eraseLen_slotAddr hw] at ha
    obtain ⟨k, hk, rfl⟩ := mem_eraseAddrs _ _ _ (by rw [eachLogSize]; split_ifs <;> omega) a ha
    have hk' : k < 300 := hk.trans_le (by split_ifs <;> omega)
    rw [eachLogSize]
    omega
  · exact hrest ⟨x, 1, List.mem_append_left _ (List.mem_map.mpr ⟨x, ha, rfl⟩), le_rfl,
      Nat.lt_succ_self x⟩
  · rw [erasePointer_apply, if_neg hpointer]

/-! #### Writing -/

theorem InRing.inBlock {a : ℕ} (h : InRing t a) : InBlock t a eachLogSize := by
  obtain ⟨k, hk, rfl⟩ := inRing_iff.mp h
  have hbase := base_eq t
  have hslot := slotAddr_eq t k
  rw [InBlock, eachTypeLogBlockSize, eachTypeLogTotal, eachLogSize]
  omega

theorem PointersOk.inRing (h : PointersOk m s) (t : LogType) : InRing t (s.nextWriteAddrVal t) := by
  obtain ⟨w, hw, hnext, -⟩ := h t
  exact hnext ▸ inRing_slotAddr hw

theorem writeLog_own (h : PointersOk m s) (t : LogType) : ∀ a ∈ writeLogAccesses s t, a.Own t := by
  intro a ha
  simp only [writeLogAccesses, List.mem_cons, List.not_mem_nil, or_false] at ha
  rcases ha with rfl | rfl
  · exact Or.inl (h.inRing t).inBlock
  · exact Or.inr ⟨le_rfl, le_rfl⟩

theorem writeLog_unwritten (h : PointersOk m s) {time : List UInt8} (htime : time.length = 19)
    (flag : UInt8)
    (hx : ¬Written (writeLogAccesses s t) x) : (writeLog m s t time flag).1 x = m x := by
  obtain ⟨w, hw, hnext, -⟩ := h t
  have ht := logNextWAddr_eq t
  have htlt := t.isLt
  have hslot := slotAddr_lt t hw.le
  have hentry : ¬(slotAddr t w ≤ x ∧ x < slotAddr t w + 20) := by
    intro hin
    exact hx ⟨s.nextWriteAddrVal t, eachLogSize, List.mem_cons_self, by rwa [hnext]⟩
  have hpointer : ¬(logNextWAddr t ≤ x ∧ x < logNextWAddr t + 2) := by
    intro hin
    exact hx ⟨logNextWAddr t, 2, by simp [writeLogAccesses], hin⟩
  simp only [writeLog, hnext]
  rw [writeLenByte_two_apply _ (by omega) _ (by omega) (by omega),
    write_frame _ (by simp [htime]; omega) (by simp [htime]; omega)]

/-- Writing an entry moves one pointer to the next slot. -/
theorem PointersOk.writeLog (h : PointersOk m s) {time : List UInt8} (htime : time.length = 19)
    (t : LogType)
    (flag : UInt8) : PointersOk (Log.writeLog m s t time flag).1 (Log.writeLog m s t time flag).2 := by
  obtain ⟨w, hw, hnext, -⟩ := h t
  intro u
  simp only [Log.writeLog, hnext, advance_slotAddr t hw]
  by_cases hut : u = t
  · subst hut
    have hlt := Ring.succ_lt hw
    refine ⟨_, hlt, Function.update_self .., ?_⟩
    exact readLenByte_writeLenByte _ (by have := slotAddr_lt u hlt.le; omega)
  · obtain ⟨v, hv, hnextU, hstored⟩ := h u
    refine ⟨v, hv, (Function.update_of_ne hut ..).trans hnextU, ?_⟩
    have hu := logNextWAddr_eq u
    have hult := u.isLt
    have hfar : slotAddr t w ≥ 0x100 := by
      rw [slotAddr_eq]
      omega
    have hb : slotAddr t w + (time ++ [flag]).length ≤ 0x10000 := by
      have := slotAddr_lt t hw.le
      simp [htime]
      omega
    rw [readPointer_writePointer_ne _ (Ne.symm hut), ← hstored]
    exact readPointer_congr (fun y _ hy => write_frame m hb (Or.inl (by omega))) u

/-! #### Pages -/

/-- A cursor is on a slot, or where the start-up code leaves it; the last page had ten entries at
    most. -/
structure Placed (s : Log) : Prop where
  cursor : ∀ t, s.crtReadAddrVal t = 0 ∨ InRing t (s.crtReadAddrVal t)
  lastNum : ∀ b, lastNum b s ≤ 10

theorem Placed.lt (h : Placed s) (t : LogType) : s.crtReadAddrVal t < 0x100000000 := by
  rcases h.cursor t with h0 | hring
  · rw [h0]
    norm_num
  · exact hring.lt

theorem slotAddr_mod (t : LogType) (k : ℕ) : slotAddr t k % 20 = 16 := by
  rw [slotAddr_eq]
  omega

theorem inRing_of_mod {a : ℕ} (h : InBlock t a eachLogSize) (hmod : a % 20 = 16) : InRing t a := by
  rw [InBlock, eachTypeLogBlockSize, eachTypeLogTotal, eachLogSize, base_eq] at h
  rw [InRing, base_eq, max_eq, eachLogSize]
  omega

/-- An address that is whole slots away from a slot, or near address 0. -/
def Near (a : ℕ) : Prop :=
  a < 0x8000 ∧ a % 20 = 16 ∨ a ≤ 180 ∨ 0xFFFFFF00 ≤ a ∧ a < 0x100000000

/-- At most nine slots away. -/
theorem near_jump (h : Placed s) (t : LogType) {i : ℤ} (hi : -9 ≤ i ∧ i ≤ 9) :
    Near (u32 (s.crtReadAddrVal t + i * eachLogSize)) := by
  rw [Near, eachLogSize, Nat.cast_ofNat]
  rcases h.cursor t with h0 | hring
  · rw [h0, Nat.cast_zero, zero_add]
    rcases u32_cases (x := i * 20) (by omega) (by omega) with hu | hu | hu <;> omega
  · obtain ⟨k, hk, hslot⟩ := inRing_iff.mp hring
    have hmod := slotAddr_mod t k
    have hlt := slotAddr_lt t hk.le
    have hge : 256 ≤ slotAddr t k := by
      rw [slotAddr_eq]
      omega
    rw [hslot]
    rcases u32_cases (x := slotAddr t k + i * 20) (by omega) (by omega) with hu | hu | hu <;> omega

/-- A command starts near a slot, or near address 0 when the log has not been read yet. -/
theorem near_walkStart (h : Placed s) (hn : InRing t (s.nextWriteAddrVal t)) (b : Browser)
    (c : PageCmd) :
    Near (walkStart t b c s) := by
  have hnum := h.lastNum b
  have hstay : u32 (s.crtReadAddrVal t + (0 : ℤ) * eachLogSize) = s.crtReadAddrVal t :=
    u32_eq (by rw [zero_mul, add_zero]) (h.lt t)
  cases c with
  | first =>
    obtain ⟨k, hk, hslot⟩ := inRing_iff.mp hn
    have hlt := slotAddr_lt t hk.le
    rw [walkStart, hslot]
    exact Or.inl ⟨by omega, slotAddr_mod t k⟩
  | _ =>
    rw [walkStart]
    split_ifs with hdir
    · exact near_jump h t (by omega)
    · rw [← hstay]
      exact near_jump h t (by norm_num)

/-- From there an entry in the area of the log is on a slot. -/
theorem inRing_of_own (h : Placed s) (hn : InRing t (s.nextWriteAddrVal t)) {b : Browser}
    {c : PageCmd} {a : ℕ}
    (ha : a ∈ stepAddr m t c (enter t b c s)) (hown : (Access.read a eachLogSize).Own t) :
    InRing t a := by
  have hnear := near_walkStart h hn b c
  have hblock : InBlock t a eachLogSize := by
    refine hown.resolve_right fun hpointer => ?_
    rw [eachLogSize] at hpointer
    omega
  have hbounds : 256 ≤ a ∧ a < 0x8000 := by
    have hlt := t.isLt
    rw [InBlock, eachTypeLogBlockSize, eachTypeLogTotal, eachLogSize, base_eq] at hblock
    omega
  rw [Near] at hnear
  generalize hstart : walkStart t b c s = start at hnear
  cases c with
  | previous =>
    change a ∈ previousReadAddr t _ at ha
    rw [previousReadAddr, enter_cursor, hstart] at ha
    split_ifs at ha
    · obtain rfl := Option.some.inj ha
      exact inRing_base
    · exact absurd ha (by simp)
    · obtain rfl := Option.some.inj ha
      refine inRing_of_mod hblock ?_
      rw [eachLogSize, Nat.cast_ofNat] at hbounds ⊢
      rcases u32_cases (x := start + 20) (by omega) (by omega) with hu | hu | hu <;> omega
  | _ =>
    change a ∈ nextReadAddr m t _ at ha
    rw [nextReadAddr, enter_cursor, hstart] at ha
    split_ifs at ha
    · obtain rfl := Option.some.inj ha
      exact inRing_max
    · exact absurd ha (by simp)
    · obtain rfl := Option.some.inj ha
      refine inRing_of_mod hblock ?_
      rw [eachLogSize, Nat.cast_ofNat] at hbounds ⊢
      rcases u32_cases (x := start - 20) (by omega) (by omega) with hu | hu | hu <;> omega

theorem isLogFull_own (t : LogType) : (Access.read (eachTypeLogMaxAddr t) 1).Own t := by
  refine Or.inl ?_
  rw [InBlock, max_eq, base_eq, eachTypeLogBlockSize, eachTypeLogTotal, eachLogSize]
  omega

/-- A page command stays in the area of its log exactly when its walk may start where it does. -/
theorem page_own_iff (h : Placed s) (hn : InRing t (s.nextWriteAddrVal t)) (b : Browser) (c : PageCmd) :
    (∀ a ∈ pageAccesses m t b c s, a.Own t) ↔ MayStart t c (walkStart t b c s) := by
  rw [pageAccesses, List.forall_mem_cons, List.forall_mem_map, and_iff_right (isLogFull_own t)]
  constructor
  · intro hown
    have hn' : InRing t ((enter t b c s).nextWriteAddrVal t) := by
      rw [enter_nextWrite]
      exact hn
    have hc' : (enter t b c s).crtReadAddrVal t < 0x100000000 := by
      rw [enter_cursor]
      exact walkStart_lt hn (h.lt t)
    rw [← enter_cursor, ← stepRead_inRing (m := m) c hn' hc']
    intro a ha
    refine inRing_of_own h hn ha (hown a ?_)
    obtain ⟨k, hk⟩ : ∃ k, pageSize b = k + 1 := by cases b <;> exact ⟨_, rfl⟩
    rw [reads, hk, loopReads]
    exact List.mem_append_left _ (by simpa using ha)
  · intro hstart a ha
    exact Or.inl ((((stays_iff hn (h.lt t)).mpr hstart).2 a ha).inBlock)

theorem pageLoop_le {read : Log → Log × List UInt8} {put : ℕ → List UInt8 → Log → Log} :
    ∀ (k i : ℕ) (s : Log), (pageLoop read put k i s).2 ≤ i + k
  | 0, _, _ => le_rfl
  | k + 1, i, s => by
      simp only [pageLoop]
      split_ifs
      · exact Nat.le_add_right i (k + 1)
      · exact (pageLoop_le k (i + 1) _).trans (by omega)

/-- Such a command keeps the cursors in their places. -/
theorem Placed.page (h : Placed s) (hn : InRing t (s.nextWriteAddrVal t)) {b : Browser} {c : PageCmd}
    (hstart : MayStart t c (walkStart t b c s)) : Placed (Log.page m t b c s) := by
  constructor
  · intro u
    by_cases hut : u = t
    · subst hut
      exact Or.inr ((stays_iff hn (h.lt u)).mpr hstart).1
    · rw [page_cursor_ne hut]
      exact h.cursor u
  · intro b'
    by_cases hb : b' = b
    · subst hb
      have hnum (n : ℕ) (s : Log) : Log.lastNum b' (setLastNum b' n s) = n := by cases b' <;> rfl
      have hlen : (walk m t b' c s).2 ≤ 10 :=
        (pageLoop_le _ _ _).trans (by cases b' <;> decide)
      rw [page_eq_walk, hnum, pageLen]
      split_ifs
      · exact h.lastNum b'
      · exact hlen
    · rw [(sameOwn_page (Ne.symm hb) c s).num]
      exact h.lastNum b'

/-! #### Starting -/

theorem Placed.congr {s' : Log} (h : Placed s) (hcursor : s'.crtReadAddrVal = s.crtReadAddrVal)
    (hnum : ∀ b, Log.lastNum b s' = Log.lastNum b s) : Placed s' := by
  constructor
  · intro t
    rw [hcursor]
    exact h.cursor t
  · intro b
    rw [hnum]
    exact h.lastNum b

theorem Placed.logInit (h : Placed s) (m : Eeprom) : Placed (Log.logInit m s).2 := by
  obtain ⟨next, hnext⟩ := logInit_frame m s
  rw [hnext]
  exact h.congr rfl fun b => by cases b <;> rfl

theorem placed_powerOn : Placed powerOn := ⟨fun _ => Or.inl rfl, fun b => by cases b <;> decide⟩

theorem Placed.fastClearLog (h : Placed s) (m : Eeprom) (t : LogType) :
    Placed (Log.fastClearLog m s t).2 := by
  simp only [Log.fastClearLog]
  exact Placed.logInit (s := { s with crtWebPageLogData := [] }) (h.congr rfl fun b =>
    by cases b <;> rfl) _

theorem Placed.writeLog (h : Placed s) (m : Eeprom) (t : LogType) (time : List UInt8) (flag : UInt8) :
    Placed (Log.writeLog m s t time flag).2 := by
  simp only [Log.writeLog]
  exact h.congr rfl fun b => by cases b <;> rfl

/-- A start finds the pointers that are stored. -/
theorem pointersOk_logInit (h : ∀ t, ∃ w < 300,
    at24cxxReadLenByte m (logNextWAddr t) 2 = slotAddr t w) (s : Log) :
    PointersOk (logInit m s).1 (logInit m s).2 := by
  intro t
  obtain ⟨w, hw, hstored⟩ := h t
  obtain ⟨-, hq, hn⟩ := logInit_spec m s t hstored
  rw [bootPointer_of_ne (by have := slotAddr_lt t hw.le; omega)] at hq hn
  exact ⟨w, hw, hn, hq⟩

theorem PointersOk.stored (h : PointersOk m s) (t : LogType) :
    ∃ w < 300, at24cxxReadLenByte m (logNextWAddr t) 2 = slotAddr t w := by
  obtain ⟨w, hw, -, hstored⟩ := h t
  exact ⟨w, hw, hstored⟩

end Accesses

end Log

end VectorFence
