import VectorFence.Log.Undo

/-! Paging on the LCD while the log grows. Entries are counted from the oldest, so that a write does
    not renumber them; the page `lo … hi - 1` lies between the next and the previous one:

        0 … lo - 4 │ lo - 3 … lo - 1 │ lo … hi - 1 │ hi … hi + 2 │ …  newest
                     ◀── next           the page      previous ──▶

    A page read downwards leaves the cursor at `lo`, one read upwards at `hi - 1`, from where the
    next command jumps when the direction changes. `WriteLog` sets the direction to `DOWN` without
    the jump, and a page cut short by the newest entry leaves the cursor at `hi`. -/

namespace VectorFence

namespace Log

open Eeprom Ring

/-! ### Entries counted from the oldest -/

section Span

variable {α : Type*} {l : List α} {lo hi : ℕ}

/-- The records `lo … hi - 1` of a history kept newest first. -/
def span (l : List α) (lo hi : ℕ) : List α := (l.drop (l.length - hi)).take (hi - lo)

theorem length_span (hhi : hi ≤ l.length) : (span l lo hi).length = hi - lo := by
  rw [span, List.length_take, List.length_drop]
  omega

theorem span_self (l : List α) (lo : ℕ) : span l lo lo = [] := by
  rw [span, Nat.sub_self, List.take_zero]

theorem span_snoc (hlo : lo < hi) (hhi : hi ≤ l.length) (hold : l.length - 1 - lo < l.length) :
    span l lo hi = span l (lo + 1) hi ++ [l[l.length - 1 - lo]] := by
  rw [span, span, show hi - lo = hi - (lo + 1) + 1 by omega, List.take_add_one, List.getElem?_drop,
    show l.length - hi + (hi - (lo + 1)) = l.length - 1 - lo by omega,
    List.getElem?_eq_getElem (by omega),
    Option.toList_some]

end Span

/-! ### Walks in a ring never full -/

section Walk

variable {m : Eeprom} {s : Log} {t : LogType} {es : List Entry} {y : ℕ}

theorem back_sub {n y : ℕ} (hy : y ≤ n) : back 300 n (n - y) = y := by
  rw [back_of_le (Nat.sub_le n y)]
  omega

/-- Three entries downwards from slot `y`, or as many as there are. -/
theorem walk_down (h : WellFormed m s t es.length es) {c : PageCmd} (hc : c ≠ .previous)
    (hy : y ≤ es.length)
    (hstart : walkStart t .lcd c s = slotAddr t y) :
    (walk m t .lcd c s).2 = y - (y - 3) ∧ (walk m t .lcd c s).1.crtReadAddrVal t = slotAddr t (y - 3) ∧
      (walk m t .lcd c s).1.lastLCDPageReadDir = .down ∧
      (walk m t .lcd c s).1.crtLCDPageLogData = lcdRows ((span es (y - 3) y).map Entry.text) := by
  have hlt := h.lt
  have hwalk : walk m t .lcd c s = pageLoop (readNextLog m t) putLcdRow 3 0 (enter t .lcd c s) := by
    cases c with
    | previous => exact absurd rfl hc
    | first | next => rfl
  have hcur : (enter t .lcd c s).crtReadAddrVal t =
    slotAddr t (back 300 es.length (es.length - y)) := by
    rw [enter_cursor, hstart, back_sub hy]
  have hdata : (enter t .lcd c s).crtLCDPageLogData = blankLcdPage := by cases c <;> rfl
  have hdir : (enter t .lcd c s).lastLCDPageReadDir = .down := by
    cases c with
    | previous => exact absurd rfl hc
    | first | next => rfl
  have hspan : (es.drop (es.length - y)).take 3 = span es (y - 3) y := by
    rw [span]
    rcases Nat.le_total 3 y with h3 | h3
    · rw [show y - (y - 3) = 3 by omega]
    · rw [List.take_of_length_le, List.take_of_length_le] <;> rw [List.length_drop] <;> omega
  have hlen : ((span es (y - 3) y).map Entry.text).length = y - (y - 3) := by
    rw [List.length_map, length_span hy]
  have hend : back 300 es.length (min (es.length - y + 3) es.length) = y - 3 := by
    rw [back_of_le (by omega)]
    omega
  have hrun := readRun_next 3 (es.length - y) _ (h.of_next (enter_nextWrite ..)) (by omega)
    (Or.inr hlt) hcur
  rw [hend, hspan, markIf_eq] at hrun
  rw [hwalk, pageLoop_eq readNextLog_putLcdRow, hrun]
  dsimp only
  rw [putAll_putLcdRow (by omega) (by simp only [setReadAddr]; exact hdata)]
  exact ⟨by rw [hlen, Nat.zero_add], setReadAddr_read .., hdir, rfl⟩

/-- Where a step downwards reads. -/
theorem nextReadAddr_slot (h : WellFormed m s t es.length es) (hy : y ≤ 300)
    (hc : s.crtReadAddrVal t = slotAddr t y) :
    nextReadAddr m t s = if y = 0 then none else some (slotAddr t (y - 1)) := by
  have hfull : ¬ isLogFull m t = true := by
    have hlt := h.lt
    rw [h.isLogFull, decide_eq_true_eq]
    omega
  simp only [nextReadAddr, hc, slotAddr_eq_base, if_neg hfull]
  by_cases h0 : y = 0
  · rw [if_pos h0, if_pos h0]
  · rw [if_neg h0, if_neg h0, u32_slot_pred t h0 hy]

theorem newestAddr_slot (h : WellFormed m s t es.length es) :
    newestAddr t s + eachLogSize = slotAddr t es.length := by
  have hlt := slotAddr_lt t h.lt.le
  have hslot := slotAddr_eq t es.length
  have hu : newestAddr t s = slotAddr t es.length - 20 := by
    rw [newestAddr, h.next]
    refine u32_eq ?_ (by omega)
    rw [eachLogSize]
    omega
  rw [hu, eachLogSize]
  omega

/-- Where a step upwards reads, one slot below `y`. -/
theorem previousReadAddr_slot (h : WellFormed m s t es.length es) (hy : y ≤ 400)
    (hc : s.crtReadAddrVal t + eachLogSize = slotAddr t y) : previousReadAddr t s =
      if y = 300 then some (slotAddr t 0) else if y = es.length then none else some (slotAddr t y) := by
  have ht := t.isLt
  have hnew := newestAddr_slot h
  have hy' := slotAddr_eq t y
  have hn := slotAddr_eq t es.length
  have hmax := max_eq t
  rw [eachLogSize] at hc hnew
  have hu : u32 (s.crtReadAddrVal t + eachLogSize) = slotAddr t y := by
    refine u32_eq ?_ (by omega)
    rw [eachLogSize]
    omega
  rw [previousReadAddr, hu, slotAddr_zero]
  by_cases h300 : y = 300
  · rw [if_pos h300, if_pos (by omega)]
  · rw [if_neg h300, if_neg (by omega)]
    by_cases htop : y = es.length
    · rw [if_pos htop, if_pos (by omega)]
    · rw [if_neg htop, if_neg (by omega)]

/-- A step upwards from below slot `y`, which stores an entry. -/
theorem readPreviousLog_slot (h : WellFormed m s t es.length es) (hy : y < es.length)
    (hold : es.length - 1 - y < es.length) (hc : s.crtReadAddrVal t + eachLogSize = slotAddr t y) :
    readPreviousLog m t s =
      (markIf (y + 1 = es.length) es.length logHead (s.setReadAddr t (slotAddr t y)),
        es[es.length - 1 - y].text) := by
  have hlt := h.lt
  have haddr := previousReadAddr_slot h (by omega) hc
  rw [if_neg (by omega), if_neg (by omega)] at haddr
  have hnew := newestAddr_eq (h.setReadAddr (slotAddr t y)) (k := y) (by omega)
  have htext : entryAt m (slotAddr t y) = es[es.length - 1 - y].text := by
    have hentry := entryAt_slot h (a := es.length - 1 - y) (by omega)
    rwa [show es.length - 1 - y + 1 = es.length - y by omega, back_sub hy.le] at hentry
  rw [readPreviousLog, haddr]
  simp only [hnew, htext, markIf, updateLogPageFlag_eq (h.setReadAddr _)]

/-- Above the newest entry there is nothing to read, and the cursor is left there. -/
theorem readPreviousLog_top (h : WellFormed m s t es.length es)
    (hc : s.crtReadAddrVal t + eachLogSize = slotAddr t es.length) : readPreviousLog m t s =
      (mark es.length logHead (s.setReadAddr t (slotAddr t es.length)), blankEntry) := by
  have hlt := h.lt
  have haddr := previousReadAddr_slot h (by omega) hc
  rw [if_neg (by omega), if_pos rfl] at haddr
  rw [readPreviousLog, haddr]
  simp only [h.next, updateLogPageFlag_eq (h.setReadAddr _)]

/-- At most `k` entries upwards from slot `y`. -/
theorem readRun_up (k : ℕ) (h : WellFormed m s t es.length es) (hy : y ≤ es.length)
    (hc : s.crtReadAddrVal t + eachLogSize = slotAddr t y) :
    ∃ f g, readRun (readPreviousLog m t) k s =
      ({ s.setReadAddr t
          (if es.length < y + k then slotAddr t es.length else s.crtReadAddrVal t + k * eachLogSize) with
          webLogPageFlag := f, LCDLogPageFlag := g },
        ((span es y (min (y + k) es.length)).map Entry.text).reverse) := by
  induction k generalizing s y with
  | zero =>
    refine ⟨s.webLogPageFlag, s.LCDLogPageFlag, ?_⟩
    rw [readRun, if_neg (by omega), Nat.zero_mul, Nat.add_zero, Nat.add_zero, setReadAddr_self rfl,
      Nat.min_eq_left hy, span_self, List.map_nil, List.reverse_nil]
  | succ k ih =>
    rcases Nat.lt_or_eq_of_le hy with hlt | rfl
    · have hread := readPreviousLog_slot h hlt (by omega) hc
      have hwf : WellFormed m (readPreviousLog m t s).1 t es.length es :=
        h.of_next (by rw [hread]; simp)
      have hcur : (readPreviousLog m t s).1.crtReadAddrVal t + eachLogSize = slotAddr t (y + 1) := by
        rw [hread, markIf_read, setReadAddr_read, slotAddr_eq, slotAddr_eq, eachLogSize]
        omega
      have hstate (a : ℕ) (f g : UInt8) : { (readPreviousLog m t s).1.setReadAddr t a with
          webLogPageFlag := f, LCDLogPageFlag := g } =
          { s.setReadAddr t a with webLogPageFlag := f, LCDLogPageFlag := g } := by
        rw [hread, markIf_eq]
        simp only [setReadAddr, Function.update_idem]
      have hread0 : (readPreviousLog m t s).1.crtReadAddrVal t = s.crtReadAddrVal t + eachLogSize := by
        rw [hread, markIf_read, setReadAddr_read, hc]
      have hsnoc : span es y (min (y + (k + 1)) es.length) = _ :=
        span_snoc (by omega) (by omega) (by omega)
      have hsum : y + 1 + k = y + (k + 1) := by omega
      have hcount : s.crtReadAddrVal t + eachLogSize + k * eachLogSize =
          s.crtReadAddrVal t + (k + 1) * eachLogSize := by rw [Nat.succ_mul]; omega
      obtain ⟨f, g, hrun⟩ := ih hwf hlt hcur
      refine ⟨f, g, ?_⟩
      simp only [readRun]
      rw [if_neg (by rw [hread]; exact Entry.text_ne _), hrun, hstate, hread0, hsnoc, List.map_append,
        List.reverse_append, List.map_singleton, List.reverse_singleton, List.singleton_append,
        hread, hsum, hcount]
    · have hread := readPreviousLog_top h hc
      refine ⟨(readPreviousLog m t s).1.webLogPageFlag, (readPreviousLog m t s).1.LCDLogPageFlag, ?_⟩
      simp only [readRun]
      rw [hread, if_pos (by simp [blankEntry, eachLogSize]), if_pos (by omega),
        Nat.min_eq_right (by omega),
        span_self, List.map_nil, List.reverse_nil]
      rfl

/-- The rows of a page that fills from below. -/
def lcdRowsUp (l : List (List UInt8)) : List (List UInt8) :=
  List.replicate (3 - l.length) blankEntry ++ l

theorem putAll_putLcdRowUp {l : List (List UInt8)} (hl : l.length ≤ 3) {s : Log}
    (hs : s.crtLCDPageLogData = blankLcdPage) :
    putAll putLcdRowUp 0 l.reverse s = { s with crtLCDPageLogData := lcdRowsUp l } := by
  match l, hl with
  | [], _ => exact (congrArg (fun d => { s with crtLCDPageLogData := d }) hs :)
  | [_], _ | [_, _], _ | [_, _, _], _ =>
      simp only [List.reverse_cons, List.reverse_nil, List.nil_append,
      List.cons_append, putAll, putLcdRowUp, putLcdRow, hs]; rfl

/-- Three entries upwards from slot `y`, or as many as there are; after fewer the cursor is above the
    newest entry. -/
theorem walk_up (h : WellFormed m s t es.length es) (hy : y ≤ es.length)
    (hstart : walkStart t .lcd .previous s + eachLogSize = slotAddr t y) :
    (walk m t .lcd .previous s).2 = min (y + 3) es.length - y ∧
      (walk m t .lcd .previous s).1.crtReadAddrVal t =
        slotAddr t (if es.length < y + 3 then es.length else y + 2) ∧
      (walk m t .lcd .previous s).1.lastLCDPageReadDir = .up ∧
      (walk m t .lcd .previous s).1.crtLCDPageLogData =
        lcdRowsUp ((span es y (min (y + 3) es.length)).map Entry.text) := by
  have hwalk : walk m t .lcd .previous s =
    pageLoop (readPreviousLog m t) putLcdRowUp 3 0 (enter t .lcd .previous s) := rfl
  have hlen : ((span es y (min (y + 3) es.length)).map Entry.text).length = min (y + 3)
    es.length - y := by
    rw [List.length_map, length_span (by omega)]
  have hend : (if es.length < y + 3 then slotAddr t es.length
      else (enter t .lcd .previous s).crtReadAddrVal t + 3 * eachLogSize) =
      slotAddr t (if es.length < y + 3 then es.length else y + 2) := by
    rw [enter_cursor]
    split_ifs
    · rfl
    · rw [slotAddr_eq] at hstart ⊢
      rw [eachLogSize] at hstart ⊢
      omega
  obtain ⟨f, g, hrun⟩ := readRun_up (s := enter t .lcd .previous s) 3
    (h.of_next (enter_nextWrite ..)) hy
    (by rw [enter_cursor]; exact hstart)
  rw [hend] at hrun
  rw [hwalk, pageLoop_eq readPreviousLog_putLcdRowUp, hrun]
  dsimp only
  rw [putAll_putLcdRowUp (by omega) rfl]
  exact ⟨by rw [List.length_reverse, hlen, Nat.zero_add], setReadAddr_read .., rfl, rfl⟩

/-! ### The slots a walk reads -/

/-- The first address a walk reads. -/
theorem head?_loopReads {addr : Log → Option ℕ} {read : Log → Log × List UInt8}
    {put : ℕ → List UInt8 → Log → Log} (hstop : addr s = none → (read s).2.headD 0 = 0) (k i : ℕ) :
    (loopReads addr read put (k + 1) i s).head? = addr s := by
  rw [loopReads]
  cases ha : addr s with
  | none => rw [if_pos (hstop ha)]; rfl
  | some a => rfl

theorem readNextLog_none (ha : nextReadAddr m t s = none) : (readNextLog m t s).2.headD 0 = 0 := by
  rw [readNextLog, ha]
  rfl

theorem readPreviousLog_none (ha : previousReadAddr t s = none) :
    (readPreviousLog m t s).2.headD 0 = 0 := by
  rw [readPreviousLog, ha]
  rfl

theorem head?_reads (c : PageCmd) : (reads m t .lcd c s).head? = stepAddr m t c (enter t .lcd c s) := by
  cases c with
  | previous => exact head?_loopReads readPreviousLog_none 2 0
  | _ => exact head?_loopReads readNextLog_none 2 0

/-- The addresses of the slots `lo … hi - 1`. -/
def slots (t : LogType) (lo hi : ℕ) : List ℕ := (List.range' lo (hi - lo)).map (slotAddr t)

theorem slots_self (lo : ℕ) : slots t lo lo = [] := by
  rw [slots, Nat.sub_self, List.range'_zero, List.map_nil]

theorem slots_cons {lo hi : ℕ} (h : lo < hi) :
    slots t lo hi = slotAddr t lo :: slots t (lo + 1) hi := by
  rw [slots, slots, show hi - lo = hi - (lo + 1) + 1 by omega, List.range'_succ, List.map_cons]

theorem slots_snoc {lo hi : ℕ} (h : lo ≤ hi) :
    slots t lo (hi + 1) = slots t lo hi ++ [slotAddr t hi] := by
  rw [slots, slots, Nat.succ_sub h, List.range'_1_concat, List.map_append, List.map_singleton,
    Nat.add_sub_cancel' h]

theorem loopReads_down (h : WellFormed m s t es.length es) (hy : y ≤ es.length)
    (hc : s.crtReadAddrVal t = slotAddr t y) (k i : ℕ) :
    loopReads (nextReadAddr m t) (readNextLog m t) putLcdRow k i s = (slots t (y - k) y).reverse := by
  have hlt := h.lt
  induction k generalizing s y i with
  | zero => rw [loopReads, Nat.sub_zero, slots_self, List.reverse_nil]
  | succ k ih =>
    have haddr := nextReadAddr_slot h (by omega) hc
    have hback : slotAddr t y = slotAddr t (back 300 es.length (es.length - y)) := by rw [back_sub hy]
    cases y with
    | zero =>
      rw [if_pos rfl] at haddr
      simp only [loopReads]
      rw [haddr, if_pos (readNextLog_none haddr), Nat.zero_sub, slots_self]
      rfl
    | succ y =>
      have hread := readNextLog_lt h (a := es.length - (y + 1)) (by omega) (hc.trans hback)
      rw [show es.length - (y + 1) + 1 = es.length - y by omega, back_sub (by omega)] at hread
      have hwf : WellFormed m (putLcdRow i (readNextLog m t s).2 (readNextLog m t s).1) t
        es.length es :=
        h.of_next (by rw [hread]; simp [putLcdRow])
      have hcur : (putLcdRow i (readNextLog m t s).2 (readNextLog m t s).1).crtReadAddrVal t =
        slotAddr t y := by
        rw [hread]
        simp only [putLcdRow, markIf_read, setReadAddr_read]
      rw [if_neg (Nat.succ_ne_zero y), Nat.add_sub_cancel] at haddr
      simp only [loopReads]
      rw [if_neg (by rw [hread]; exact Entry.text_ne _), haddr, ih hwf (by omega) hcur,
        Nat.succ_sub_succ,
        slots_snoc (Nat.sub_le y k), List.reverse_append, List.reverse_singleton]
      rfl

theorem loopReads_up (h : WellFormed m s t es.length es) (hy : y ≤ es.length)
    (hc : s.crtReadAddrVal t + eachLogSize = slotAddr t y) (k i : ℕ) :
    loopReads (previousReadAddr t) (readPreviousLog m t) putLcdRowUp k i s =
      slots t y (min (y + k) es.length) := by
  have hlt := h.lt
  induction k generalizing s y i with
  | zero => rw [loopReads, Nat.add_zero, Nat.min_eq_left hy, slots_self]
  | succ k ih =>
    have haddr := previousReadAddr_slot h (by omega) hc
    rw [if_neg (by omega)] at haddr
    rcases Nat.lt_or_eq_of_le hy with hslot | rfl
    · have hread := readPreviousLog_slot h hslot (by omega) hc
      have hwf : WellFormed m (putLcdRowUp i (readPreviousLog m t s).2 (readPreviousLog m t s).1) t
        es.length es :=
        h.of_next (by rw [hread]; simp [putLcdRowUp, putLcdRow])
      have hcur : (putLcdRowUp i (readPreviousLog m t s).2 (readPreviousLog m t s).1).crtReadAddrVal t +
          eachLogSize = slotAddr t (y + 1) := by
        rw [hread]
        simp only [putLcdRowUp, putLcdRow, markIf_read, setReadAddr_read]
        rw [slotAddr_eq, slotAddr_eq, eachLogSize]
        omega
      rw [if_neg (by omega)] at haddr
      simp only [loopReads]
      rw [if_neg (by rw [hread]; exact Entry.text_ne _), haddr, ih hwf hslot hcur,
        slots_cons (show y < min (y + (k + 1)) es.length by omega), Nat.add_right_comm y 1 k,
        Nat.add_assoc]
      rfl
    · rw [if_pos rfl] at haddr
      simp only [loopReads]
      rw [haddr, if_pos (readPreviousLog_none haddr), Nat.min_eq_right (Nat.le_add_right ..),
        slots_self]
      rfl

theorem head?_slots {lo hi : ℕ} :
    (slots t lo hi).head? = if lo < hi then some (slotAddr t lo) else none := by
  split_ifs with h
  · rw [slots_cons h]; rfl
  · rw [slots, Nat.sub_eq_zero_of_le (by omega)]; rfl

theorem head?_slots_reverse {lo hi : ℕ} :
    (slots t lo hi).reverse.head? = if lo < hi then some (slotAddr t (hi - 1)) else none := by
  split_ifs with h
  · obtain ⟨k, rfl⟩ := Nat.exists_eq_add_of_lt h
    rw [slots_snoc (by omega), List.reverse_append, Nat.add_sub_cancel]
    rfl
  · rw [slots, Nat.sub_eq_zero_of_le (by omega)]; rfl

/-- The next page is read from `lo` exactly when the walk starts there. -/
theorem reads_next_iff {lo : ℕ} (h : WellFormed m s t es.length es) (hlo : lo ≤ es.length)
    (hy : y ≤ 300)
    (hstart : walkStart t .lcd .next s = slotAddr t y) :
    reads m t .lcd .next s = (slots t (lo - 3) lo).reverse ↔ y = lo := by
  have hcur : (enter t .lcd .next s).crtReadAddrVal t = slotAddr t y := by rw [enter_cursor, hstart]
  have hwf := h.of_next (enter_nextWrite (t := t) .lcd .next s)
  constructor
  · intro hreads
    have hhead := congrArg List.head? hreads
    rw [head?_reads, head?_slots_reverse] at hhead
    change nextReadAddr m t (enter t .lcd .next s) = _ at hhead
    rw [nextReadAddr_slot hwf hy hcur] at hhead
    split_ifs at hhead with h0 h1 h1
    · omega
    · have := slotAddr_inj.mp (Option.some.inj hhead)
      omega
  · rintro rfl
    exact loopReads_down hwf hlo hcur 3 0

/-- The previous page is read from `hi` exactly when the walk starts there. -/
theorem reads_previous_iff {hi : ℕ} (h : WellFormed m s t es.length es) (hhi : hi ≤ es.length)
    (hy : y ≤ 400)
    (hstart : walkStart t .lcd .previous s + eachLogSize = slotAddr t y) (hwrap : y = 300 → hi ≠ 0) :
    reads m t .lcd .previous s = slots t hi (min (hi + 3) es.length) ↔ y = hi := by
  have hlt := h.lt
  have hcur : (enter t .lcd .previous s).crtReadAddrVal t + eachLogSize = slotAddr t y := by
    rw [enter_cursor, hstart]
  have hwf := h.of_next (enter_nextWrite (t := t) .lcd .previous s)
  constructor
  · intro hreads
    have hhead := congrArg List.head? hreads
    rw [head?_reads, head?_slots] at hhead
    change previousReadAddr t (enter t .lcd .previous s) = _ at hhead
    rw [previousReadAddr_slot hwf hy hcur] at hhead
    split_ifs at hhead with h0 h1 h2 h3 h3
    · have := slotAddr_inj.mp (Option.some.inj hhead)
      omega
    · omega
    · have := slotAddr_inj.mp (Option.some.inj hhead)
      omega
  · rintro rfl
    exact loopReads_up hwf hhi hcur 3 0

theorem filter_lcdRowsUp (l : List Entry) :
    (lcdRowsUp (l.map Entry.text)).filter (·.headD 0 ≠ 0) = l.map Entry.text := by
  rw [lcdRowsUp, List.filter_append, filter_text, filter_blank, List.nil_append]

end Walk

/-! ### Reading while entries are written -/

/-- What may happen while the LCD shows the log of a type. -/
inductive LcdTurn where
  | write (time : TimeStr) (alarmFlag : UInt8)
  | next
  | previous

/-- A log with the entries `lo … hi - 1` last shown, by a command upwards or not. -/
structure LcdReading where
  mem : Eeprom
  log : Log
  entries : List Entry
  lo : ℕ
  hi : ℕ
  upward : Bool

namespace LcdReading

/-- After `ReadLCDFirstPageLog`. -/
def first (m : Eeprom) (s : Log) (t : LogType) (es : List Entry) : LcdReading where
  mem := m
  log := readLCDFirstPageLog m t s
  entries := es
  lo := es.length - 3
  hi := es.length
  upward := false

def step (t : LogType) (r : LcdReading) : LcdTurn → LcdReading
  | .write time alarmFlag =>
    let ms := writeLog r.mem r.log t time.bytes alarmFlag
    { r with mem := ms.1, log := ms.2, entries := time.entry alarmFlag :: r.entries }
  | .next =>
      { r with log := readLCDNextPageLog r.mem t r.log, lo := r.lo - 3, hi := r.lo, upward := false }
  | .previous => { r with
      log := readLCDPreviousPageLog r.mem t r.log, lo := r.hi, hi := min (r.hi + 3) r.entries.length
      upward := true }

/-- The rows on the page are the entries `lo … hi - 1`, the newest on top. -/
def Shows (r : LcdReading) : Prop :=
  r.log.crtLCDPageLogData.filter (·.headD 0 ≠ 0) = (span r.entries r.lo r.hi).map Entry.text

/-- A page command reads the slots of the entries next to the page last shown, and shows them. -/
def Follows (t : LogType) (r : LcdReading) : LcdTurn → Prop
  | .write _ _ => True
  | .next => reads r.mem t .lcd .next r.log = (slots t (r.lo - 3) r.lo).reverse ∧ (r.step t .next).Shows
  | .previous => reads r.mem t .lcd .previous r.log = slots t r.hi (min (r.hi + 3) r.entries.length) ∧
      (r.step t .previous).Shows

/-- The page read upwards was full and nothing has been written since, or it was empty and something
    has. -/
def AtPage (r : LcdReading) : Prop :=
  r.log.lastLCDPageLogNum = if r.log.lastLCDPageReadDir = .up then 3 else 0

/-- From a page read downwards a command goes on to the right page, provided that the way up knows
    how many entries the page has; from a page read upwards it does exactly in the cases of `AtPage`. -/
def Resumes (r : LcdReading) : LcdTurn → Prop
  | .write _ _ => True
  | .next => r.upward → r.AtPage
  | .previous => if r.upward then r.AtPage else r.log.lastLCDPageLogNum = r.hi - r.lo

/-- The slot under the cursor. -/
def cursor (r : LcdReading) : ℕ :=
  if r.upward then if r.log.lastLCDPageLogNum = 3 then r.hi - 1 else r.hi else r.lo

/-- What holds of the log and the page last shown as long as every command has gone on to the right
    page. -/
structure Sound (t : LogType) (r : LcdReading) : Prop where
  wf : WellFormed r.mem r.log t r.entries.length r.entries
  lo_le : r.lo ≤ r.hi
  size : r.hi ≤ r.lo + 3
  hi_le : r.hi ≤ r.entries.length
  num_lt : r.log.lastLCDPageLogNum < 256
  at_cursor : r.log.crtReadAddrVal t = slotAddr t r.cursor
  num : r.upward = true ∨ r.hi ≠ 0 → r.log.lastLCDPageLogNum = r.hi - r.lo
  dir : r.upward = false → r.log.lastLCDPageReadDir = .down
  top : r.upward = true →
    (r.log.lastLCDPageReadDir = .up → r.log.lastLCDPageLogNum < 3 → r.hi = r.entries.length) ∧
    (r.log.lastLCDPageReadDir = .down → r.hi < r.entries.length)

section Step

variable {t : LogType} {r : LcdReading}

theorem cursor_down (hup : r.upward = false) : r.cursor = r.lo := by rw [cursor, hup]; rfl

theorem cursor_up (hup : r.upward = true) :
    r.cursor = if r.log.lastLCDPageLogNum = 3 then r.hi - 1 else r.hi := by rw [cursor, if_pos hup]

/-- After a page read upwards the cursor is on its newest entry if it was full, else above it. -/
theorem Sound.cursor_cases (h : r.Sound t) (hup : r.upward = true) :
    r.log.lastLCDPageLogNum = 3 ∧ r.cursor + 1 = r.hi ∨ r.log.lastLCDPageLogNum ≠ 3 ∧
    r.cursor = r.hi := by
  have hn := h.num (Or.inl hup)
  rw [cursor_up hup]
  split_ifs <;> omega

/-- Where `ReadLCDNextPageLog` starts: at `lo` exactly when it resumes. -/
theorem Sound.start_next (h : r.Sound t) :
    ∃ y, y ≤ 300 ∧ walkStart t .lcd .next r.log = slotAddr t y ∧ (y = r.lo ↔ r.Resumes .next) := by
  have hcursor := h.cursor_cases
  obtain ⟨hwf, hlo, hsize, hhi, -, hcur, hnum, hdir, htop⟩ := h
  have hlt := hwf.lt
  cases hup : r.upward with
  | false =>
    have hd := hdir hup
    have hstart : walkStart t .lcd .next r.log = slotAddr t r.lo := by
      rw [walkStart, if_neg (by simp [lastDir, hd]), hcur, cursor_down hup]
    exact ⟨r.lo, by omega, hstart, by simp [Resumes, hup]⟩
  | true =>
    have hn := hnum (Or.inl hup)
    have hk := hcursor hup
    obtain ⟨htu, htd⟩ := htop hup
    cases hd : r.log.lastLCDPageReadDir with
    | up =>
      have hres : r.Resumes .next ↔ r.log.lastLCDPageLogNum = 3 := by simp [Resumes, AtPage, hup, hd]
      have hstart := walkStart_down (b := .lcd) (k := r.cursor) (n := r.log.lastLCDPageLogNum) hd rfl
        (by omega) (by omega) hcur
      refine ⟨_, by omega, hstart, ?_⟩
      rw [hres]
      omega
    | down =>
      have hres : r.Resumes .next ↔ r.log.lastLCDPageLogNum = 0 := by simp [Resumes, AtPage, hup, hd]
      have hstart : walkStart t .lcd .next r.log = slotAddr t r.cursor := by
        rw [walkStart, if_neg (by simp [lastDir, hd]), hcur]
      refine ⟨r.cursor, by omega, hstart, ?_⟩
      rw [hres]
      omega

/-- Where `ReadLCDPreviousPageLog` starts: just below `hi` exactly when it resumes. -/
theorem Sound.start_previous (h : r.Sound t) :
    ∃ y, y ≤ 400 ∧ walkStart t .lcd .previous r.log + eachLogSize = slotAddr t y ∧
    (y = 300 → r.hi ≠ 0) ∧
      (y = r.hi ↔ r.Resumes .previous) := by
  have hcursor := h.cursor_cases
  obtain ⟨hwf, hlo, hsize, hhi, hbyte, hcur, hnum, hdir, htop⟩ := h
  have hlt := hwf.lt
  cases hup : r.upward with
  | false =>
    have hd := hdir hup
    have hk := cursor_down hup
    have hstart := walkStart_up (b := .lcd) (k := r.cursor) (n := r.log.lastLCDPageLogNum) hd rfl
      (by omega) hcur
    have hres : r.Resumes .previous ↔ r.log.lastLCDPageLogNum = r.hi - r.lo := by simp [Resumes, hup]
    rcases Nat.eq_zero_or_pos r.hi with h0 | hpos
    · refine ⟨_, by omega, hstart, by omega, ?_⟩
      rw [hres]
      omega
    · have hn := hnum (Or.inr hpos.ne')
      refine ⟨_, by omega, hstart, by omega, ?_⟩
      rw [hres]
      omega
  | true =>
    have hn := hnum (Or.inl hup)
    have hk := hcursor hup
    obtain ⟨htu, htd⟩ := htop hup
    cases hd : r.log.lastLCDPageReadDir with
    | up =>
      have hres : r.Resumes .previous ↔ r.log.lastLCDPageLogNum = 3 := by
        simp [Resumes, AtPage, hup, hd]
      have hstart : walkStart t .lcd .previous r.log + eachLogSize = slotAddr t (r.cursor + 1) := by
        rw [walkStart, if_neg (by simp [lastDir, hd]), hcur, slotAddr_eq, slotAddr_eq, eachLogSize]
        omega
      refine ⟨r.cursor + 1, by omega, hstart, by omega, ?_⟩
      rw [hres]
      omega
    | down =>
      have hres : r.Resumes .previous ↔ r.log.lastLCDPageLogNum = 0 := by
        simp [Resumes, AtPage, hup, hd]
      have hstart := walkStart_up (b := .lcd) (k := r.cursor) (n := r.log.lastLCDPageLogNum) hd rfl
        (by omega) hcur
      refine ⟨_, by omega, hstart, by omega, ?_⟩
      rw [hres]
      omega

/-- After `ReadLCDFirstPageLog`, whose count is an old one on an empty log. -/
theorem sound_first {m : Eeprom} {s : Log} {es : List Entry} (h : WellFormed m s t es.length es)
    (hbyte : s.lastLCDPageLogNum < 256) : (first m s t es).Sound t ∧ (first m s t es).Shows := by
  obtain ⟨hlen, hcur, hdir, hdata⟩ := walk_down h (c := .first) (by decide) le_rfl h.next
  have hpage : (first m s t es).log = _ := page_eq_walk .lcd .first s
  have hnum : (first m s t es).log.lastLCDPageLogNum =
      if (walk m t .lcd .first s).2 = 0 then s.lastLCDPageLogNum else (walk m t .lcd .first s).2 := by
    rw [hpage]
    simp only [setLastNum, pageLen, lastNum, true_and]
  rw [hlen] at hnum
  refine ⟨⟨h.of_next (page_next .lcd .first s), Nat.sub_le .., ?_, le_rfl, ?_, ?_, ?_, fun _ => ?_,
    fun hup => absurd hup (by simp [first])⟩, ?_⟩
  · simp only [first]
    omega
  · rw [hnum]
    split_ifs <;> omega
  · rw [hpage]
    exact hcur
  · rintro (hup | hne)
    · exact absurd hup (by simp [first])
    · rw [hnum]
      simp only [first] at hne ⊢
      exact if_neg (by omega)
  · rw [hpage]
    exact hdir
  · rw [Shows, hpage]
    simp only [setLastNum, hdata, filter_lcdRows]
    rfl

/-- The two other page commands store the count of their walk. -/
theorem page_eq_num {m : Eeprom} {c : PageCmd} {s : Log} (hc : c ≠ .first) :
    page m t .lcd c s = { (walk m t .lcd c s).1 with lastLCDPageLogNum := (walk m t .lcd c s).2 } := by
  rw [page_eq_walk, pageLen, if_neg (fun h => hc h.2.1)]
  rfl

theorem Sound.write (h : r.Sound t) (time : TimeStr) (alarmFlag : UInt8)
    (hfew : r.entries.length + 1 < 300) :
    (r.step t (.write time alarmFlag)).Sound t := by
  have hwf := h.wf.writeLog time alarmFlag
  rw [Ring.succ, if_neg hfew.ne, Ring.push, List.take_of_length_le (by rw [List.length_cons]; omega)]
    at hwf
  refine ⟨hwf, h.lo_le, h.size, h.hi_le.trans (Nat.le_succ _), h.num_lt, h.at_cursor, h.num,
    fun _ => rfl, fun _ => ?_⟩
  exact ⟨fun hup => absurd hup (by simp [step, writeLog]), fun _ => Nat.lt_succ_of_le h.hi_le⟩

theorem Sound.next (h : r.Sound t) (hres : r.Resumes .next) :
    (r.step t .next).Sound t ∧ (r.step t .next).Shows := by
  obtain ⟨y, -, hstart, hiff⟩ := h.start_next
  obtain rfl := hiff.mpr hres
  have hlo := h.lo_le
  have hhi := h.hi_le
  obtain ⟨hlen, hcur, hdir, hdata⟩ := walk_down h.wf (c := .next) (by decide) (hlo.trans hhi) hstart
  have hpage : (r.step t .next).log = _ :=
    page_eq_num (m := r.mem) (c := .next) (s := r.log) (by decide)
  have hnum : (r.step t .next).log.lastLCDPageLogNum = r.lo - (r.lo - 3) := by rw [hpage]; exact hlen
  refine ⟨⟨h.wf.of_next (page_next .lcd .next r.log), Nat.sub_le .., ?_, hlo.trans hhi, by omega, ?_,
    fun _ => hnum,
    fun _ => ?_, fun hup => absurd hup (by simp [step])⟩, ?_⟩
  · simp only [step]
    omega
  · rw [hpage]
    exact hcur
  · rw [hpage]
    exact hdir
  · rw [Shows, hpage]
    simp only [hdata, filter_lcdRows]
    rfl

theorem Sound.previous (h : r.Sound t) (hres : r.Resumes .previous) :
    (r.step t .previous).Sound t ∧ (r.step t .previous).Shows := by
  obtain ⟨y, -, hstart, -, hiff⟩ := h.start_previous
  obtain rfl := hiff.mpr hres
  have hlo := h.lo_le
  have hhi := h.hi_le
  obtain ⟨hlen, hcur, hdir, hdata⟩ := walk_up h.wf hhi hstart
  have hpage : (r.step t .previous).log = _ :=
    page_eq_num (m := r.mem) (c := .previous) (s := r.log) (by decide)
  have hnum : (r.step t .previous).log.lastLCDPageLogNum = min (r.hi + 3) r.entries.length - r.hi := by
    rw [hpage]; exact hlen
  refine ⟨⟨h.wf.of_next (page_next .lcd .previous r.log), ?_, ?_, ?_, by omega, ?_, fun _ => hnum,
    fun hup => absurd hup (by simp [step]), fun _ => ⟨fun _ hlt => ?_, fun hdown => ?_⟩⟩, ?_⟩
  · simp only [step]
    omega
  · simp only [step]
    omega
  · exact Nat.min_le_right ..
  · rw [cursor_up rfl, hnum, hpage]
    refine hcur.trans (congrArg (slotAddr t) ?_)
    simp only [step]
    split_ifs <;> omega
  · rw [hnum] at hlt
    simp only [step]
    omega
  · rw [hpage] at hdown
    exact absurd (hdir.symm.trans hdown) (by decide)
  · rw [Shows, hpage]
    simp only [hdata, filter_lcdRowsUp]
    rfl

theorem Sound.adjacent_iff (h : r.Sound t) (turn : LcdTurn) : r.Follows t turn ↔ r.Resumes turn := by
  have hlo := h.lo_le
  have hhi := h.hi_le
  cases turn with
  | write time alarmFlag => exact Iff.rfl
  | next =>
    obtain ⟨y, hy, hstart, hiff⟩ := h.start_next
    have hreads := reads_next_iff h.wf (hlo.trans hhi) hy hstart
    exact ⟨fun hf => hiff.mp (hreads.mp hf.1),
      fun hres => ⟨hreads.mpr (hiff.mpr hres), (h.next hres).2⟩⟩
  | previous =>
    obtain ⟨y, hy, hstart, hwrap, hiff⟩ := h.start_previous
    have hreads := reads_previous_iff h.wf hhi hy hstart hwrap
    exact ⟨fun hf => hiff.mp (hreads.mp hf.1),
      fun hres => ⟨hreads.mpr (hiff.mpr hres), (h.previous hres).2⟩⟩

theorem Sound.step (h : r.Sound t) {turn : LcdTurn} (hfew : (r.step t turn).entries.length < 300)
    (hres : r.Resumes turn) : (r.step t turn).Sound t := by
  cases turn with
  | write time alarmFlag => exact h.write time alarmFlag hfew
  | next => exact (h.next hres).1
  | previous => exact (h.previous hres).1

end Step

end LcdReading

/-- `ReadLCDFirstPageLog` and any turns after it, on a log that stays below 300 entries. The
    variables are as `log.c` may have left them. -/
structure LcdSession where
  t : LogType
  mem : Eeprom
  log : Log
  entries : List Entry
  stored : WellFormed mem log t entries.length entries
  byte : log.lastLCDPageLogNum < 256
  turns : List LcdTurn
  few : ∀ p ∈ Run.steps (LcdReading.step t) (LcdReading.first mem log t entries) turns,
    (p.1.step t p.2).entries.length < 300

namespace LcdSession

/-- The page the session begins with. -/
def first (s : LcdSession) : LcdReading := .first s.mem s.log s.t s.entries

def steps (s : LcdSession) : List (LcdReading × LcdTurn) :=
  Run.steps (LcdReading.step s.t) s.first s.turns

/-- A session begins with the newest entries, and its pages follow one another exactly as long as
    every page command resumes from the page before. -/
theorem pages_adjacent_iff (s : LcdSession) : s.first.Shows ∧
    ((∀ p ∈ s.steps, p.1.Follows s.t p.2) ↔ ∀ p ∈ s.steps, p.1.Resumes p.2) := by
  obtain ⟨hsound, hshows⟩ := LcdReading.sound_first s.stored s.byte
  exact ⟨hshows, Run.steps_iff_of_steps (·.Sound s.t) (fun (r : LcdReading) turn =>
    (r.step s.t turn).entries.length < 300) _ _
    (fun _ turn h hfew hf => h.step hfew ((h.adjacent_iff turn).mp hf)) (fun _ turn h _ =>
      h.adjacent_iff turn)
    s.turns s.first hsound s.few⟩

/-- Seven entries of `BOPN` on a new EEPROM. -/
def sevenWrites : Eeprom × Log :=
  (fun ms => writeLog ms.1 ms.2 .BOPN TimeStr.sample.bytes 1)^[7] (logInit newEeprom powerOn)

theorem wellFormed_writes {t : LogType} {ms : Eeprom × Log} (h : WellFormed ms.1 ms.2 t 0 [])
    (time : TimeStr)
    (alarmFlag : UInt8) : ∀ k, k < 300 →
      WellFormed ((fun ms => writeLog ms.1 ms.2 t time.bytes alarmFlag)^[k] ms).1
        ((fun ms => writeLog ms.1 ms.2 t time.bytes alarmFlag)^[k] ms).2 t k
        (List.replicate k (time.entry alarmFlag))
  | 0, _ => h
  | k + 1, hk => by
      have ih := (wellFormed_writes h time alarmFlag k (by omega)).writeLog time alarmFlag
      rw [Ring.succ, if_neg hk.ne, Ring.push, List.take_of_length_le (by simp; omega)] at ih
      rw [Function.iterate_succ_apply']
      exact ih

/-- An entry is written while a page read upwards is shown. -/
def written : LcdSession where
  t := .BOPN
  mem := sevenWrites.1
  log := sevenWrites.2
  entries := List.replicate 7 (TimeStr.sample.entry 1)
  stored := wellFormed_writes ((erased_newEeprom .BOPN).logInit powerOn) .sample 1 7 (by decide)
  byte := by decide
  turns := [.next, .previous, .write .sample 1, .next]
  few := by
    simp only [Run.steps, List.forall_mem_cons]
    simp [LcdReading.step, LcdReading.first]

/-- The page after it repeats two entries of the page before. -/
theorem not_pages_adjacent : ¬ ∀ s : LcdSession, ∀ p ∈ s.steps, p.1.Follows s.t p.2 := by
  intro h
  have hlast := (h written (_, .next) (List.mem_of_getLast? (rfl : written.steps.getLast? = _))).1
  revert hlast
  decide +kernel

end LcdSession

end Log

end VectorFence
