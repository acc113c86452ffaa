import VectorFence.Log.Cursor

/-! Going back a web page. `ReadWebPreviousPageLog` after `ReadWebNextPageLog` jumps from the oldest
    entry of page `i + 1` to its newest one and walks up over page `i`; the next
    `ReadWebNextPageLog` jumps from the newest entry of page `i` to its oldest one.

        entries   10i … 10i+9 │ 10i+10 … 10i+19
                  ◀── jump down   jump up ──▶

    In a ring that has been full the seam between slot 0 and slot 299 may fall inside either page, and
    then the jump over it leaves the ring. Besides, the newest entry is not recognised while the
    write pointer stands at the base. These three cases are exactly those that fail. -/

namespace VectorFence

namespace Log

open Eeprom Ring Pager

/-! ### Walking up a page -/

section Up

variable {m : Eeprom} {s : Log} {t : LogType} {w : ℕ} {es : List Entry}

theorem putAll_prependWebRow : ∀ (l : List (List UInt8)) (i : ℕ) (s : Log),
    putAll prependWebRow i l s =
      { s with crtWebPageLogData := (l.reverse.map webRow).flatten ++ s.crtWebPageLogData }
  | [], _, s => rfl
  | x :: l, i, s => by
      rw [putAll, putAll_prependWebRow l (i + 1)]
      simp only [prependWebRow, List.reverse_cons, List.map_append, List.flatten_append,
        List.map_singleton, List.flatten_singleton, List.append_assoc]

/-- Web page `i` of the history `es` has just been read upwards. -/
structure WebUpAt (m : Eeprom) (t : LogType) (w : ℕ) (es : List Entry) (i : ℕ) (s : Log) : Prop where
  wf : WellFormed m s t w es
  cursor : s.crtReadAddrVal t = slotAddr t (back 300 w (10 * i + 1))
  dir : s.lastWebPageReadDir = .up
  num : s.lastWebPageLogNum = 10
  pageNum : s.crtWebLogPageNum = i + 1
  data : s.crtWebPageLogData = webText (chunk 10 i es)
  flag : s.webLogPageFlag = if i = 0 ∧ w ≠ 0 then logHead else logMiddle

/-- The page loop of `ReadWebPreviousPageLog` from the newest entry of page `i + 1`. -/
theorem webPageUp (i : ℕ) (h : WellFormed m s t w es) (hi : 10 * (i + 1) < es.length)
    (hc : s.crtReadAddrVal t = slotAddr t (back 300 w (10 * (i + 1) + 1)))
    (hdir : s.lastWebPageReadDir = .up) (hnum : s.crtWebLogPageNum = i + 1)
    (hdata : s.crtWebPageLogData = []) (hflag : s.webLogPageFlag = logMiddle) :
    WebUpAt m t w es i
      (let p := pageLoop (readPreviousLog m t) prependWebRow 10 0 s
      { p.1 with lastWebPageLogNum := p.2 }) := by
  have hsub : 10 * (i + 1) - 10 = 10 * i := by omega
  have hlen : (chunk 10 i es).length = 10 := by
    rw [chunk, List.length_take, List.length_drop]; omega
  rw [pageLoop_eq readPreviousLog_prependWebRow,
    readRun_previous 10 (10 * (i + 1)) s h (by omega) hi hc, putAll_prependWebRow, markIf_eq, hsub]
  refine ⟨h.of_next rfl, setReadAddr_read .., hdir, ?_, hnum, ?_, ?_⟩
  · rw [← chunk, List.length_reverse, List.length_map, hlen]
  · simp only [setReadAddr, hdata, List.append_nil, List.reverse_reverse, List.map_map, webText, chunk]
    rfl
  · have hfirst : (0 < 10 ∧ 10 = 10 * (i + 1) ∧ w ≠ 0) ↔ i = 0 ∧ w ≠ 0 := by omega
    simp only [setReadAddr, hfirst, hflag, if_pos (show 10 < es.length by omega)]

end Up

/-! ### The seam -/

section Jump

variable {m : Eeprom} {s : Log} {t : LogType} {w i : ℕ} {es : List Entry}

/-- The jump up over a page of `n` entries, in slots; it ends one slot below the entries to read. -/
theorem walkStart_up {b : Browser} {k n : ℕ} (hd : lastDir b s = .down) (hnum : lastNum b s = n)
    (hk : k + n ≤ 600) (hc : s.crtReadAddrVal t = slotAddr t k) :
    walkStart t b .previous s + eachLogSize = slotAddr t (k + n) := by
  have ht := t.isLt
  have hk' := slotAddr_eq t k
  have hkn := slotAddr_eq t (k + n)
  have hu : u32 (slotAddr t k + (n - 1 : ℤ) * eachLogSize) = slotAddr t (k + n) - 20 := by
    refine u32_eq ?_ (by omega)
    rw [eachLogSize]
    omega
  rw [walkStart, if_pos hd, hnum, hc, hu, eachLogSize]
  omega

/-- The jump down over a page of `n` entries, in slots. -/
theorem walkStart_down {b : Browser} {k n : ℕ} (hd : lastDir b s = .up) (hnum : lastNum b s = n)
    (hk : k ≤ 300) (hnk : n ≤ k + 1) (hc : s.crtReadAddrVal t = slotAddr t k) :
    walkStart t b .next s = slotAddr t (k + 1 - n) := by
  have ht := t.isLt
  rw [walkStart, if_pos hd, hnum, hc]
  refine u32_eq ?_ ?_
  · rw [slotAddr_eq, slotAddr_eq, eachLogSize]; omega
  · rw [slotAddr_eq]; omega

/-- The jump up from a page with entries ends on its newest one. -/
theorem walkStart_newest {b : Browser} {k n : ℕ} (hd : lastDir b s = .down) (hnum : lastNum b s = n)
    (hn : 1 ≤ n) (hk : k + n ≤ 600) (hc : s.crtReadAddrVal t = slotAddr t k) :
    walkStart t b .previous s = slotAddr t (k + n - 1) := by
  have hup := walkStart_up hd hnum hk hc
  have hslot : slotAddr t (k + n - 1) + eachLogSize = slotAddr t (k + n) := by
    rw [slotAddr_eq, slotAddr_eq, eachLogSize]
    omega
  exact Nat.add_right_cancel (hup.trans hslot.symm)

theorem readWebNextPageLog_eq_walk (s : Log) : readWebNextPageLog m t s =
    let p := pageLoop (readNextLog m t) appendWebRow 10 0 (enter t .web .next s)
    { p.1 with lastWebPageLogNum := p.2 } := page_eq_walk .web .next s

theorem readWebPreviousPageLog_eq_walk (s : Log) : readWebPreviousPageLog m t s =
    let p := pageLoop (readPreviousLog m t) prependWebRow 10 0 (enter t .web .previous s)
    { p.1 with lastWebPageLogNum := p.2 } := page_eq_walk .web .previous s

/-- The page after page `i` has at least one entry and fits into the ring. -/
theorem WebAt.num_eq (h : WebAt m t w es (i + 1) s) (hi : 10 * (i + 1) < es.length) :
    s.lastWebPageLogNum = min 10 (es.length - 10 * (i + 1)) ∧
    min (10 * (i + 1 + 1)) es.length = 10 * (i + 1) + min 10 (es.length - 10 * (i + 1)) := by
  constructor
  · rw [h.num, chunk, List.length_take, List.length_drop]
  · omega

/-- Without the seam in the page just shown `ReadWebPreviousPageLog` turns back to the page before. -/
theorem readWebPreviousPageLog_at (h : WebAt m t w es (i + 1) s) (hi : 10 * (i + 1) < es.length)
    (hseam : es.length < 300 ∨ w ≤ 10 * (i + 1) ∨ 10 * (i + 1 + 1) ≤ w) :
    WebUpAt m t w es i (readWebPreviousPageLog m t s) := by
  obtain ⟨hnum, hmin⟩ := h.num_eq hi
  have hle := h.wf.length_le
  have hlen := h.wf.length
  have hcur := h.cursor
  rw [hmin] at hcur
  have hadd := back_add (N := 300) (w := w) (a := 10 * (i + 1))
    (n := min 10 (es.length - 10 * (i + 1))) (by omega) (by omega) (by omega)
  have hlt := back_lt h.wf.lt (N := 300) (a := 10 * (i + 1) + 1) (by omega)
  rw [readWebPreviousPageLog_eq_walk]
  refine webPageUp i (h.wf.of_next rfl) hi ?_ rfl ?_ rfl rfl
  · rw [enter_cursor, walkStart_newest (b := .web) h.dir hnum (by omega) (by omega) hcur, hadd]
  · show (s.crtWebLogPageNum + 255) % 256 = i + 1
    rw [h.pageNum]
    omega

/-- Without the seam in the page just shown `ReadWebNextPageLog` turns forth to the page after. -/
theorem readWebNextPageLog_of_up (h : WebUpAt m t w es i s) (hi : 10 * (i + 1) < es.length)
    (hseam : es.length < 300 ∨ w ≤ 10 * i ∨ 10 * (i + 1) ≤ w) :
    WebAt m t w es (i + 1) (readWebNextPageLog m t s) := by
  have hle := h.wf.length_le
  have hlen := h.wf.length
  have hadd := back_add (N := 300) (w := w) (a := 10 * i) (n := 10) (by omega) (by omega) (by omega)
  have hlt := back_lt h.wf.lt (N := 300) (a := 10 * i + 1) (by omega)
  rw [readWebNextPageLog_eq_walk]
  refine webPage (i + 1) (h.wf.of_next rfl) (Or.inr hi) ?_ rfl ?_ rfl ?_
  · rw [enter_cursor, walkStart_down (b := .web) h.dir h.num hlt.le (by omega) h.cursor]
    congr 1
    rw [Nat.mul_succ]
    omega
  · show (s.crtWebLogPageNum + 1) % 256 = i + 1 + 1
    rw [h.pageNum]
    omega
  · rw [if_neg (Nat.succ_ne_zero i)]
    rfl

/-! ### Over the seam -/

theorem pageLoop_stop {read : Log → Log × List UInt8} {put : ℕ → List UInt8 → Log → Log} (k i : ℕ)
    (h : (read s).2.headD 0 = 0) : pageLoop read put (k + 1) i s = ((read s).1, i) := if_pos h

theorem entryAt_headD (a : ℕ) : (entryAt m a).headD 0 = at24cxxReadOneByte m a := by
  simp only [entryAt, eachLogSize, at24cxxRead]
  rfl

/-- Above the ring of `fullMem` there is nothing to read. -/
theorem readPreviousLog_above {k : ℕ} (hk : 300 ≤ k) (hk' : k ≤ 400)
    (hc : s.crtReadAddrVal t = slotAddr t k) :
    (readPreviousLog (fullMem t w) t s).2.headD 0 = 0 := by
  have ht := t.isLt
  have hp := logNextWAddr_eq t
  unfold readPreviousLog
  cases ha : previousReadAddr t s with
  | none => rfl
  | some a =>
    have hval : a = slotAddr t (k + 1) := by
      rw [previousReadAddr, hc, if_neg (by rw [slotAddr_eq_max]; omega)] at ha
      split_ifs at ha with h1
      rw [← Option.some.inj ha]
      refine u32_eq ?_ (by rw [slotAddr_eq]; omega)
      rw [slotAddr_eq, slotAddr_eq, eachLogSize]; omega
    have hbig := slotAddr_eq t (k + 1)
    dsimp only
    rw [entryAt_headD, hval, readOneByte_eq _ (by omega)]
    refine fullMem_zero (Or.inr ?_) (by omega) (by omega)
    rw [slotAddr_eq, slotAddr_eq]; omega

/-- Below the ring of `fullMem` there is nothing to read. -/
theorem readNextLog_below {a : ℕ} (h0 : a + 20 ≤ slotAddr t 0) (h1 : slotAddr t 0 ≤ a + 180)
    (hmod : a % 20 = slotAddr t 0 % 20) (hc : s.crtReadAddrVal t = a) :
    (readNextLog (fullMem t w) t s).2.headD 0 = 0 := by
  have ht := t.isLt
  have hp := logNextWAddr_eq t
  have hbase := slotAddr_eq t 0
  have haddr : nextReadAddr (fullMem t w) t s = some (a - 20) := by
    rw [nextReadAddr, hc, if_neg (by rw [← slotAddr_zero]; omega)]
    congr 1
    refine u32_eq ?_ (by omega)
    rw [eachLogSize]; omega
  rw [readNextLog, haddr]
  dsimp only
  rw [entryAt_headD, readOneByte_eq _ (by omega)]
  exact fullMem_zero (Or.inl (by omega)) (by omega) (by omega)

/-- With the seam in the page just shown, turning back shows nothing. -/
theorem readWebPreviousPageLog_seam
    (h : WebAt (fullMem t w) t w (List.replicate 300 Entry.ones) (i + 1) s) (hi : i + 1 < 30)
    (h0 : 10 * (i + 1) < w) (h1 : w < 10 * (i + 1 + 1)) :
    (readWebPreviousPageLog (fullMem t w) t s).crtWebPageLogData = [] := by
  have hlen : (List.replicate 300 Entry.ones).length = 300 := List.length_replicate ..
  obtain ⟨hnum, hmin⟩ := h.num_eq (by omega)
  have hcur := h.cursor
  rw [hmin] at hcur
  have hn10 : min 10 ((List.replicate 300 Entry.ones).length - 10 * (i + 1)) = 10 := by omega
  rw [hn10] at hcur hnum
  have hadd := le_back_add (N := 300) (w := w) (a := 10 * (i + 1)) (n := 10) h0 (by omega)
  have hlt := back_lt h.wf.lt (N := 300) (a := 10 * (i + 1) + 10) (by omega)
  have hstart : (enter t .web .previous s).crtReadAddrVal t =
      slotAddr t (back 300 w (10 * (i + 1) + 10) + 10 - 1) := by
    rw [enter_cursor, walkStart_newest (b := .web) h.dir hnum (by omega) (by omega) hcur]
  have hstop := readPreviousLog_above (w := w) hadd.1 (by omega) hstart
  rw [readWebPreviousPageLog_eq_walk, pageLoop_stop 9 0 hstop, readPreviousLog_frame]
  rfl

/-- With the seam in the page just shown, turning forth again shows nothing. -/
theorem readWebNextPageLog_seam
    (h : WebUpAt (fullMem t w) t w (List.replicate 300 Entry.ones) i s)
    (h0 : 10 * i < w) (h1 : w < 10 * (i + 1)) :
    (readWebNextPageLog (fullMem t w) t s).crtWebPageLogData = [] := by
  have hadd := le_back_add (N := 300) (w := w) (a := 10 * i) (n := 10) h0 (by omega)
  have hstart : (enter t .web .next s).crtReadAddrVal t =
      slotAddr t (back 300 w (10 * i + 1)) - 180 := by
    have ht := t.isLt
    rw [enter_cursor, walkStart, if_pos (show lastDir .web s = .up from h.dir),
      show lastNum .web s = 10 from h.num, h.cursor]
    refine u32_eq ?_ ?_
    · rw [slotAddr_eq, eachLogSize]; omega
    · rw [slotAddr_eq]; omega
  have hstop := readNextLog_below (w := w) (a := slotAddr t (back 300 w (10 * i + 1)) - 180)
    (by simp only [slotAddr_eq]; omega) (by simp only [slotAddr_eq]; omega)
    (by simp only [slotAddr_eq]; omega) hstart
  rw [readWebNextPageLog_eq_walk, pageLoop_stop 9 0 hstop, readNextLog_frame]
  rfl

theorem webText_ne_nil {l : List Entry} (h : l ≠ []) : webText l ≠ [] := by
  cases l with
  | nil => exact absurd rfl h
  | cons e l => simp [webText, webRow]

theorem webText_chunk_ne_nil {P : ℕ} (hP : 0 < P) (hi : P * i < es.length) :
    webText (chunk P i es) ≠ [] := by
  refine webText_ne_nil fun h => ?_
  have := congrArg List.length h
  rw [chunk, List.length_take, List.length_drop, List.length_nil] at this
  omega

end Jump

/-! ### Next, then previous -/

/-- Page `k` of the web browser, counted from 1. -/
def webPageNo (m : Eeprom) (t : LogType) (k : ℕ) (s : Log) : Log :=
  (readWebNextPageLog m t)^[k - 1] (readWebFirstPageLog m t s)

/-- From page `k`, going forth and back shows page `k` again, as the first page exactly when it is,
    and going forth once more shows page `k + 1` again. -/
def PreviousUndoesNext (m : Eeprom) (t : LogType) (k : ℕ) (s : Log) : Prop :=
  let p := webPageNo m t k s
  let q := readWebNextPageLog m t p
  let r := readWebPreviousPageLog m t q
  let q' := readWebNextPageLog m t r
  (r.crtWebPageLogData = p.crtWebPageLogData ∧ r.crtWebLogPageNum = p.crtWebLogPageNum) ∧
  (r.webLogPageFlag &&& logHead ≠ 0 ↔ k = 1) ∧
  (q'.crtWebPageLogData = q.crtWebPageLogData ∧ q'.crtWebLogPageNum = q.crtWebLogPageNum)

section Undo

variable {m : Eeprom} {s : Log} {t : LogType} {w k : ℕ} {es : List Entry}

theorem webPageNo_at (h : WellFormed m s t w es) : ∀ k, 10 * k ≤ es.length →
    (k = 0 ∨ 10 * k < es.length) → WebAt m t w es k (webPageNo m t (k + 1) s)
  | 0, _, _ => readWebFirstPageLog_at h
  | k + 1, hle, hk => by
      have hlt : 10 * (k + 1) < es.length := hk.resolve_left (Nat.succ_ne_zero k)
      have ih := webPageNo_at h k (by omega) (Or.inr (by omega))
      have hstep : webPageNo m t (k + 1 + 1) s = readWebNextPageLog m t (webPageNo m t (k + 1) s) :=
        Function.iterate_succ_apply' ..
      rw [hstep]
      exact readWebNextPageLog_at ih hlt

theorem logHead_ite (c : Prop) [Decidable c] :
    (if c then logHead else logMiddle) &&& logHead ≠ 0 ↔ c := by
  split_ifs with hc
  · exact iff_of_true (by decide) hc
  · exact iff_of_false (by decide) hc

/-- Without the seam in either page, and with a recognisable newest entry, going back undoes going
    forth. -/
theorem previousUndoesNext (h : WellFormed m s t w es) (hk : 10 * (k + 1) < es.length)
    (hseam : es.length < 300 ∨
      (w ≤ 10 * k ∨ w = 10 * (k + 1) ∨ 10 * (k + 1 + 1) ≤ w) ∧ ¬ (k = 0 ∧ w = 0)) :
    PreviousUndoesNext m t (k + 1) s := by
  have hw := h.lt
  have hlen := h.length
  have hp := webPageNo_at h k (by omega) (Or.inr (by omega))
  have hq := readWebNextPageLog_at hp hk
  have hr := readWebPreviousPageLog_at hq hk (by omega)
  have hq' := readWebNextPageLog_of_up hr hk (by omega)
  refine ⟨⟨hr.data.trans hp.data.symm, hr.pageNum.trans hp.pageNum.symm⟩, ?_,
    hq'.data.trans hq.data.symm, hq'.pageNum.trans hq.pageNum.symm⟩
  rw [hr.flag, logHead_ite]
  omega

/-- The pages of a log of `L` entries from which going back undoes going forth, whatever the log
    contains: all of them until the ring has been full; after that those that do not meet the seam,
    page 1 needing a write pointer off the base besides. -/
theorem previousUndoesNext_iff {L : ℕ} (t : LogType) (hw : w < 300) (hL : L = w ∨ L = 300)
    (hk1 : 1 ≤ k) (hk : 10 * k < L) :
    (∀ (m : Eeprom) (s : Log) (es : List Entry), es.length = L → WellFormed m s t w es →
      PreviousUndoesNext m t k s) ↔
    L < 300 ∨ (w ≤ 10 * (k - 1) ∨ w = 10 * k ∨ 10 * (k + 1) ≤ w) ∧ ¬ (k = 1 ∧ w = 0) := by
  obtain ⟨i, rfl⟩ := Nat.exists_eq_add_of_le' hk1
  rw [Nat.add_sub_cancel]
  constructor
  · intro h
    by_contra hseam
    have hL300 : L = 300 := by omega
    have hlen : (List.replicate 300 Entry.ones).length = 300 := List.length_replicate ..
    have hwf := wellFormed_full (t := t) hw
    obtain ⟨⟨hdata, -⟩, hhead, hnext, -⟩ := h _ _ _ (hlen.trans hL300.symm) hwf
    have hp := webPageNo_at hwf i (by omega) (Or.inr (by omega))
    have hq := readWebNextPageLog_at hp (by omega)
    rcases Nat.lt_or_ge (10 * (i + 1)) w with hup | hup
    · -- the seam is in page `k + 1`
      rw [readWebPreviousPageLog_seam hq (by omega) hup (by omega), hp.data] at hdata
      exact webText_chunk_ne_nil (by omega) (by omega) hdata.symm
    · have hr := readWebPreviousPageLog_at hq (by omega) (by omega)
      rcases Nat.lt_or_ge (10 * i) w with hdown | hdown
      · -- the seam is in page `k`
        rw [readWebNextPageLog_seam hr hdown (by omega), hq.data] at hnext
        exact webText_chunk_ne_nil (by omega) (by omega) hnext.symm
      · -- the newest entry is in the last slot
        rw [hr.flag, logHead_ite] at hhead
        omega
  · rintro hseam m s es rfl hwf
    exact previousUndoesNext hwf hk (by omega)

end Undo

/-- A full ring with slot 20 next: the seam lies between pages 2 and 3. -/
theorem previousUndoesNext_full_ring : (20 < 300 ∧ (300 = 20 ∨ 300 = 300) ∧ 1 ≤ 3 ∧ 10 * 3 < 300) ∧
    ∀ (m : Eeprom) (s : Log) (es : List Entry), es.length = 300 → WellFormed m s .BIVD 20 es →
      PreviousUndoesNext m .BIVD 3 s :=
  ⟨by decide, (previousUndoesNext_iff .BIVD (by decide) (Or.inr rfl) (by decide) (by decide)).mpr
    (by decide)⟩

/-- A full log with slot 15 next: page 2 holds slots 4 to 0 and 299 to 295. -/
theorem not_previousUndoesNext : ¬ ∀ (m : Eeprom) (s : Log) (t : LogType) (w k : ℕ)
    (es : List Entry), WellFormed m s t w es → 1 ≤ k → 10 * k < es.length →
    PreviousUndoesNext m t k s := by
  intro h
  have hlen : (List.replicate 300 Entry.ones).length = 300 := List.length_replicate ..
  have hu := h _ _ .AOPN 15 1 _ (wellFormed_full (by norm_num)) le_rfl (by omega)
  have hdata := hu.1.1
  revert hdata
  decide +kernel

end Log

end VectorFence
