import VectorFence.Lib.Pager
import VectorFence.Log.Walk

/-! Browsing a log downwards. A history `es` is shown as `Pager.chunk P i es` for `i = 0, 1, …`; the
    state after `i` page commands is `WebAt m t w es i` (pages of 10) or `LcdAt m t w es i` (pages
    of 3), and one more command leads to page `i + 1`:

        page 0            page 1                    page total - 1
        es[0..9]  ──▶  es[10..19]  ──▶  …  ──▶  the oldest entries
        LOG_HEAD                                LOG_END

    The history itself comes from any run of writes and restarts on an erased EEPROM. -/

namespace VectorFence

namespace Log

open Eeprom Ring Pager

/-! ### Storing the entries of a page -/

section Put

variable {m : Eeprom} {t : LogType}

/-- A change of the page buffers, each by itself. -/
def mapPages (web : List UInt8 → List UInt8) (lcd : List (List UInt8) → List (List UInt8))
    (s : Log) : Log :=
  { s with crtWebPageLogData := web s.crtWebPageLogData, crtLCDPageLogData := lcd s.crtLCDPageLogData }

theorem readNextLog_mapPages (web : List UInt8 → List UInt8)
    (lcd : List (List UInt8) → List (List UInt8))
    (s : Log) : readNextLog m t (mapPages web lcd s) =
      (mapPages web lcd (readNextLog m t s).1, (readNextLog m t s).2) := by
  unfold readNextLog
  rw [show nextReadAddr m t (mapPages web lcd s) = nextReadAddr m t s from rfl]
  cases nextReadAddr m t s with
  | none => rfl
  | some a =>
    dsimp only
    rw [show ((mapPages web lcd s).setReadAddr t a).nextWriteAddrVal t =
      (s.setReadAddr t a).nextWriteAddrVal t from rfl]
    split_ifs <;> rfl

theorem readPreviousLog_mapPages (web : List UInt8 → List UInt8)
    (lcd : List (List UInt8) → List (List UInt8))
    (s : Log) : readPreviousLog m t (mapPages web lcd s) =
      (mapPages web lcd (readPreviousLog m t s).1, (readPreviousLog m t s).2) := by
  unfold readPreviousLog
  rw [show previousReadAddr t (mapPages web lcd s) = previousReadAddr t s from rfl]
  cases previousReadAddr t s with
  | none => rfl
  | some a =>
    dsimp only
    rw [show newestAddr t ((mapPages web lcd s).setReadAddr t a) =
      newestAddr t (s.setReadAddr t a) from rfl]
    split_ifs <;> rfl

theorem readNextLog_appendWebRow (i : ℕ) (x : List UInt8) (s : Log) :
    readNextLog m t (appendWebRow i x s) =
      (appendWebRow i x (readNextLog m t s).1, (readNextLog m t s).2) :=
  readNextLog_mapPages (· ++ webRow x) id s

theorem readNextLog_putLcdRow (i : ℕ) (x : List UInt8) (s : Log) :
    readNextLog m t (putLcdRow i x s) =
      (putLcdRow i x (readNextLog m t s).1, (readNextLog m t s).2) :=
  readNextLog_mapPages id (·.set i x) s

theorem readPreviousLog_prependWebRow (i : ℕ) (x : List UInt8) (s : Log) :
    readPreviousLog m t (prependWebRow i x s) =
      (prependWebRow i x (readPreviousLog m t s).1, (readPreviousLog m t s).2) :=
  readPreviousLog_mapPages (webRow x ++ ·) id s

theorem readPreviousLog_putLcdRowUp (i : ℕ) (x : List UInt8) (s : Log) :
    readPreviousLog m t (putLcdRowUp i x s) =
      (putLcdRowUp i x (readPreviousLog m t s).1, (readPreviousLog m t s).2) :=
  readPreviousLog_mapPages id (·.set (eachLcdPageLogNum - 1 - i) x) s

theorem putAll_appendWebRow : ∀ (l : List (List UInt8)) (i : ℕ) (s : Log),
    putAll appendWebRow i l s =
      { s with crtWebPageLogData := s.crtWebPageLogData ++ (l.map webRow).flatten }
  | [], _, s => by rw [putAll, List.map_nil, List.flatten_nil, List.append_nil]
  | x :: l, i, s => by
      rw [putAll, putAll_appendWebRow l (i + 1)]
      simp only [appendWebRow, List.map_cons, List.flatten_cons, List.append_assoc]

/-- The rows of an LCD page that shows at most three entries. -/
def lcdRows (l : List (List UInt8)) : List (List UInt8) := l ++ List.replicate (3 - l.length) blankEntry

theorem putAll_putLcdRow {l : List (List UInt8)} (hl : l.length ≤ 3) {s : Log}
    (hs : s.crtLCDPageLogData = blankLcdPage) :
    putAll putLcdRow 0 l s = { s with crtLCDPageLogData := lcdRows l } := by
  match l, hl with
  | [], _ => exact (congrArg (fun d => { s with crtLCDPageLogData := d }) hs :)
  | [_], _ | [_, _], _ | [_, _, _], _ => simp only [putAll, putLcdRow, hs]; rfl

/-- `readNextLog` moves the cursor and raises flags, nothing else. -/
theorem readNextLog_frame (s : Log) : (readNextLog m t s).1 =
    { s with
      crtReadAddrVal := (readNextLog m t s).1.crtReadAddrVal
      webLogPageFlag := (readNextLog m t s).1.webLogPageFlag
      LCDLogPageFlag := (readNextLog m t s).1.LCDLogPageFlag } := by
  unfold readNextLog
  cases nextReadAddr m t s with
  | none => rfl
  | some a => dsimp only; split_ifs <;> rfl

/-- `readPreviousLog` moves the cursor and raises flags, nothing else. -/
theorem readPreviousLog_frame (s : Log) : (readPreviousLog m t s).1 =
    { s with
      crtReadAddrVal := (readPreviousLog m t s).1.crtReadAddrVal
      webLogPageFlag := (readPreviousLog m t s).1.webLogPageFlag
      LCDLogPageFlag := (readPreviousLog m t s).1.LCDLogPageFlag } := by
  unfold readPreviousLog
  cases previousReadAddr t s with
  | none => rfl
  | some a => dsimp only; split_ifs <;> rfl

/-- The first web page is a page loop from the newest entry; on an empty log it stores nothing. -/
theorem readWebFirstPageLog_eq (s : Log) : readWebFirstPageLog m t s =
    let p := pageLoop (readNextLog m t) appendWebRow 10 0
      (Log.setReadAddr { s with
        crtWebLogPageNum := 1
        webLogPageFlag := logHead
        lastWebPageLogNum := 0
        crtWebPageLogData := []
        lastWebPageReadDir := .down } t (s.nextWriteAddrVal t))
    { p.1 with lastWebPageLogNum := p.2 } := by
  unfold readWebFirstPageLog readFirstLog
  rw [pageLoop]
  dsimp only
  split_ifs with h0
  · rw [readNextLog_frame]; rfl
  · rfl

/-- The same for the LCD, whose count of the last page is left alone on an empty log. -/
theorem readLCDFirstPageLog_eq (s : Log) : ∃ n, readLCDFirstPageLog m t s =
    { (pageLoop (readNextLog m t) putLcdRow 3 0 (Log.setReadAddr { s with
        LCDLogPageFlag := logHead
        crtLCDPageLogData := blankLcdPage
        lastLCDPageReadDir := .down } t (s.nextWriteAddrVal t))).1 with lastLCDPageLogNum := n } := by
  unfold readLCDFirstPageLog readFirstLog
  rw [pageLoop]
  dsimp only
  split_ifs with h0
  · exact ⟨_, rfl⟩
  · exact ⟨_, rfl⟩

end Put

/-! ### Pages -/

/-- The text a web page shows for its entries: a `#` after each. -/
def webText (es : List Entry) : List UInt8 := (es.map fun e => webRow e.text).flatten

/-- The flags of page `i` of a log of `n` entries. -/
def pageFlag (P n i : ℕ) : UInt8 :=
  (if i = 0 then logHead else logMiddle) ||| (if n ≤ P * (i + 1) then logEnd else logMiddle)

theorem pageFlag_head (P n i : ℕ) : pageFlag P n i &&& logHead ≠ 0 ↔ i = 0 := by
  unfold pageFlag
  split_ifs with h0 h1 h1 <;> simp only [h0, iff_true, iff_false] <;> decide

theorem pageFlag_end (P n i : ℕ) : pageFlag P n i &&& logEnd ≠ 0 ↔ n ≤ P * (i + 1) := by
  unfold pageFlag
  split_ifs with h0 h1 h1 <;> simp only [h1, iff_true, iff_false] <;> decide

/-- Web page `i` of the history `es` has just been read downwards. -/
structure WebAt (m : Eeprom) (t : LogType) (w : ℕ) (es : List Entry) (i : ℕ) (s : Log) : Prop where
  wf : WellFormed m s t w es
  cursor : s.crtReadAddrVal t = slotAddr t (back 300 w (min (10 * (i + 1)) es.length))
  dir : s.lastWebPageReadDir = .down
  num : s.lastWebPageLogNum = (chunk 10 i es).length
  pageNum : s.crtWebLogPageNum = i + 1
  data : s.crtWebPageLogData = webText (chunk 10 i es)
  flag : s.webLogPageFlag = pageFlag 10 es.length i

/-- LCD page `i` of the history `es` has just been read downwards. -/
structure LcdAt (m : Eeprom) (t : LogType) (w : ℕ) (es : List Entry) (i : ℕ) (s : Log) : Prop where
  wf : WellFormed m s t w es
  cursor : s.crtReadAddrVal t = slotAddr t (back 300 w (min (3 * (i + 1)) es.length))
  dir : s.lastLCDPageReadDir = .down
  data : s.crtLCDPageLogData = lcdRows ((chunk 3 i es).map Entry.text)
  flag : s.LCDLogPageFlag = pageFlag 3 es.length i

section Down

variable {m : Eeprom} {s : Log} {t : LogType} {w : ℕ} {es : List Entry}

/-- A page of `P` entries read downwards from the cursor of page `i`; `P` divides the ring. -/
theorem readRun_page (P i : ℕ) (hP : P ∣ 300) (hP0 : 0 < P) (h : WellFormed m s t w es)
    (hi : P * i ≤ es.length) (hpage : P * i < es.length ∨ es.length < 300)
    (hc : s.crtReadAddrVal t = slotAddr t (back 300 w (P * i))) :
    readRun (readNextLog m t) P s =
      (markIf (es.length ≤ P * (i + 1)) es.length logEnd
        (s.setReadAddr t (slotAddr t (back 300 w (min (P * (i + 1)) es.length)))),
      (chunk P i es).map Entry.text) := by
  have hroom : P * i + P ≤ es.length ∨ es.length < 300 := by
    rcases hpage with hlt | hlt
    · rcases Nat.lt_or_eq_of_le h.length_le with hl | hl
      · exact Or.inr hl
      · obtain ⟨n, hn⟩ := hP
        rw [hl, hn] at hlt ⊢
        have hin : i + 1 ≤ n := Nat.lt_of_mul_lt_mul_left hlt
        exact Or.inl (by rw [← Nat.mul_succ]; exact Nat.mul_le_mul_left P hin)
    · exact Or.inr hlt
  rw [readRun_next P (P * i) s h hi hroom hc, ← Nat.mul_succ, chunk]
  exact congrArg (·, _) (markIf_congr (by simp [hP0]) ..)

/-- What `markIf` makes of the flag a page command starts from. -/
theorem raised_eq_pageFlag {P n i : ℕ} (hi : i = 0 ∨ P * i < n) :
    (if n ≤ P * (i + 1) then
      if P < n then logEnd else (if i = 0 then logHead else logMiddle) ||| logEnd
    else if i = 0 then logHead else logMiddle) = pageFlag P n i := by
  unfold pageFlag
  by_cases h0 : i = 0
  · subst h0
    rw [if_pos rfl, Nat.zero_add, Nat.mul_one]
    by_cases hn : n ≤ P
    · rw [if_pos hn, if_neg (by omega), if_pos hn]
    · rw [if_neg hn, if_neg hn]; rfl
  · have hlt := hi.resolve_left h0
    have : P * 1 ≤ P * i := Nat.mul_le_mul_left P (by omega)
    rw [if_neg h0]
    by_cases hn : n ≤ P * (i + 1)
    · rw [if_pos hn, if_pos (by omega), if_pos hn]; rfl
    · rw [if_neg hn, if_neg hn]; rfl

theorem page_room {P i : ℕ} (hi : i = 0 ∨ P * i < es.length) :
    P * i ≤ es.length ∧ (P * i < es.length ∨ es.length < 300) := by
  rcases hi with rfl | hi <;> omega

/-- The page loop of the web commands reads page `i`. -/
theorem webPage (i : ℕ) (h : WellFormed m s t w es) (hi : i = 0 ∨ 10 * i < es.length)
    (hc : s.crtReadAddrVal t = slotAddr t (back 300 w (10 * i)))
    (hdir : s.lastWebPageReadDir = .down) (hnum : s.crtWebLogPageNum = i + 1)
    (hdata : s.crtWebPageLogData = [])
    (hflag : s.webLogPageFlag = if i = 0 then logHead else logMiddle) :
    WebAt m t w es i
      (let p := pageLoop (readNextLog m t) appendWebRow 10 0 s
      { p.1 with lastWebPageLogNum := p.2 }) := by
  obtain ⟨h1, h2⟩ := page_room hi
  rw [pageLoop_eq readNextLog_appendWebRow, readRun_page 10 i (by norm_num) (by norm_num) h h1 h2 hc,
    putAll_appendWebRow, markIf_eq]
  refine ⟨h.of_next rfl, setReadAddr_read .., hdir, ?_, hnum, ?_, ?_⟩
  · simp only [List.length_map, Nat.zero_add]
  · simp only [setReadAddr, hdata, List.nil_append, List.map_map, webText]; rfl
  · simp only [setReadAddr, hflag]; exact raised_eq_pageFlag hi

/-- The page loop of the LCD commands reads page `i`. -/
theorem lcdPage (i n : ℕ) (h : WellFormed m s t w es) (hi : i = 0 ∨ 3 * i < es.length)
    (hc : s.crtReadAddrVal t = slotAddr t (back 300 w (3 * i)))
    (hdir : s.lastLCDPageReadDir = .down) (hdata : s.crtLCDPageLogData = blankLcdPage)
    (hflag : s.LCDLogPageFlag = if i = 0 then logHead else logMiddle) :
    LcdAt m t w es i
      { (pageLoop (readNextLog m t) putLcdRow 3 0 s).1 with lastLCDPageLogNum := n } := by
  obtain ⟨h1, h2⟩ := page_room hi
  have hlen : ((chunk 3 i es).map Entry.text).length ≤ 3 := by
    rw [List.length_map, chunk]; exact List.length_take_le ..
  rw [pageLoop_eq readNextLog_putLcdRow, readRun_page 3 i (by norm_num) (by norm_num) h h1 h2 hc,
    markIf_eq, putAll_putLcdRow hlen (by simp only [setReadAddr, hdata])]
  refine ⟨h.of_next rfl, setReadAddr_read .., hdir, rfl, ?_⟩
  simp only [setReadAddr, hflag]; exact raised_eq_pageFlag hi

theorem readWebFirstPageLog_at (h : WellFormed m s t w es) :
    WebAt m t w es 0 (readWebFirstPageLog m t s) := by
  rw [readWebFirstPageLog_eq]
  refine webPage 0 (h.of_next rfl) (Or.inl rfl) ?_ rfl rfl rfl rfl
  rw [setReadAddr_read, h.next, Nat.mul_zero, back_zero]

/-- `ReadWebNextPageLog` turns to the next page. -/
theorem readWebNextPageLog_at {i : ℕ} (h : WebAt m t w es i s) (hi : 10 * (i + 1) < es.length) :
    WebAt m t w es (i + 1) (readWebNextPageLog m t s) := by
  have hle := h.wf.length_le
  unfold readWebNextPageLog
  simp only [h.dir, reduceCtorEq, if_false]
  refine webPage (i + 1) (h.wf.of_next rfl) (Or.inr hi) ?_ rfl ?_ rfl ?_
  · simp only [h.cursor]; rw [Nat.min_eq_left hi.le]
  · simp only [h.pageNum]; omega
  · rw [if_neg (Nat.succ_ne_zero i)]

theorem readLCDFirstPageLog_at (h : WellFormed m s t w es) :
    LcdAt m t w es 0 (readLCDFirstPageLog m t s) := by
  obtain ⟨n, hn⟩ := readLCDFirstPageLog_eq (m := m) (t := t) s
  rw [hn]
  refine lcdPage 0 n (h.of_next rfl) (Or.inl rfl) ?_ rfl rfl rfl
  rw [setReadAddr_read, h.next, Nat.mul_zero, back_zero]

/-- `ReadLCDNextPageLog` turns to the next page. -/
theorem readLCDNextPageLog_at {i : ℕ} (h : LcdAt m t w es i s) (hi : 3 * (i + 1) < es.length) :
    LcdAt m t w es (i + 1) (readLCDNextPageLog m t s) := by
  unfold readLCDNextPageLog
  simp only [h.dir, reduceCtorEq, if_false]
  refine lcdPage (i + 1) _ (h.wf.of_next rfl) (Or.inr hi) ?_ rfl rfl ?_
  · simp only [h.cursor]; rw [Nat.min_eq_left hi.le]
  · rw [if_neg (Nat.succ_ne_zero i)]

/-- The page count the web interface announces. -/
theorem getWebLogPageTotal_eq (h : WellFormed m s t w es) :
    getWebLogPageTotal m t s = total 10 es.length := by
  have hw := h.lt
  simp only [getWebLogPageTotal, h.isLogFull, h.next, slotAddr_eq_base, total]
  by_cases hf : es.length = 300
  · rw [if_pos (by simpa using hf), hf]; rfl
  · have hl := h.length.resolve_right hf
    rw [if_neg (by simpa using hf), hl]
    by_cases h0 : w = 0
    · rw [if_pos h0, h0]; rfl
    · have hu : u32 (slotAddr t w - eachLogSize - eachTypeLogBasedAddr t) = 20 * (w - 1) := by
        refine u32_eq ?_ (by omega)
        rw [slotAddr_eq, base_eq, eachLogSize]; omega
      rw [if_neg h0, hu, eachLogSize, eachWebPageLogNum]; omega

end Down

/-! ### Browsing from the first page to the last -/

/-- `ReadWebFirstPageLog`, then `ReadWebNextPageLog` until `LOG_END` is set. -/
def browseWeb (m : Eeprom) (t : LogType) (fuel : ℕ) (s : Log) : Option (List Log) :=
  browseFrom (fun s => s.webLogPageFlag &&& logEnd ≠ 0) (readWebNextPageLog m t) fuel
    (readWebFirstPageLog m t s)

/-- `ReadLCDFirstPageLog`, then `ReadLCDNextPageLog` until `LOG_END` is set. -/
def browseLcd (m : Eeprom) (t : LogType) (fuel : ℕ) (s : Log) : Option (List Log) :=
  browseFrom (fun s => s.LCDLogPageFlag &&& logEnd ≠ 0) (readLCDNextPageLog m t) fuel
    (readLCDFirstPageLog m t s)

section Browse

variable {m : Eeprom} {s : Log} {t : LogType} {w : ℕ} {es : List Entry}

theorem pageFlag_end_iff {P n i : ℕ} (hP : 0 < P) (hi : i < total P n) :
    pageFlag P n i &&& logEnd ≠ 0 ↔ i + 1 = total P n := by
  rw [pageFlag_end]
  have := succ_lt_total hP (n := n) (i := i)
  omega

/-- Browsing visits the pages of the history, one state for each. -/
theorem browseWeb_spec (h : WellFormed m s t w es) :
    ∃ pages : List Log, pages.length = total 10 es.length ∧
      (∀ i (hi : i < pages.length), WebAt m t w es i pages[i]) ∧
      ∀ fuel, total 10 es.length ≤ fuel → browseWeb m t fuel s = some pages := by
  have hpos := total_pos 10 es.length
  obtain ⟨pages, hlen, hat, hrun⟩ := browseFrom_spec (fun s => s.webLogPageFlag &&& logEnd ≠ 0)
    (readWebNextPageLog m t) (WebAt m t w es) (N := total 10 es.length)
    (fun i s hs hi => readWebNextPageLog_at hs ((succ_lt_total (by norm_num)).mp hi))
    (fun i s hs hi => by rw [decide_eq_true_iff, hs.flag, pageFlag_end_iff (by norm_num) hi])
    (total 10 es.length - 1) 0 _ (readWebFirstPageLog_at h) (by omega)
  rw [Nat.sub_add_cancel hpos] at hlen hrun
  exact ⟨pages, hlen, fun i hi => by simpa using hat i hi, hrun⟩

theorem browseLcd_spec (h : WellFormed m s t w es) :
    ∃ pages : List Log, pages.length = total 3 es.length ∧
      (∀ i (hi : i < pages.length), LcdAt m t w es i pages[i]) ∧
      ∀ fuel, total 3 es.length ≤ fuel → browseLcd m t fuel s = some pages := by
  have hpos := total_pos 3 es.length
  obtain ⟨pages, hlen, hat, hrun⟩ := browseFrom_spec (fun s => s.LCDLogPageFlag &&& logEnd ≠ 0)
    (readLCDNextPageLog m t) (LcdAt m t w es) (N := total 3 es.length)
    (fun i s hs hi => readLCDNextPageLog_at hs ((succ_lt_total (by norm_num)).mp hi))
    (fun i s hs hi => by rw [decide_eq_true_iff, hs.flag, pageFlag_end_iff (by norm_num) hi])
    (total 3 es.length - 1) 0 _ (readLCDFirstPageLog_at h) (by omega)
  rw [Nat.sub_add_cancel hpos] at hlen hrun
  exact ⟨pages, hlen, fun i hi => by simpa using hat i hi, hrun⟩

theorem filter_text (l : List Entry) :
    (l.map Entry.text).filter (·.headD 0 ≠ 0) = l.map Entry.text := by
  refine List.filter_eq_self.mpr fun x hx => ?_
  obtain ⟨e, -, rfl⟩ := List.mem_map.mp hx
  exact decide_eq_true e.text_ne

theorem filter_blank (n : ℕ) : (List.replicate n blankEntry).filter (·.headD 0 ≠ 0) = [] := by
  refine List.filter_eq_nil_iff.mpr fun x hx => ?_
  rw [List.eq_of_mem_replicate hx]
  decide

/-- The rows in use are the entries. -/
theorem filter_lcdRows (l : List Entry) :
    (lcdRows (l.map Entry.text)).filter (·.headD 0 ≠ 0) = l.map Entry.text := by
  rw [lcdRows, List.filter_append, filter_text, filter_blank, List.append_nil]

theorem flatten_webText (l : List (List Entry)) :
    (l.map webText).flatten = webText l.flatten := by
  induction l with
  | nil => rfl
  | cons es l ih =>
    rw [List.map_cons, List.flatten_cons, ih, List.flatten_cons]
    simp only [webText, List.map_append, List.flatten_append]

end Browse

/-! ### Runs of writes and restarts -/

/-- What happens to a log between two looks at it. -/
inductive Op where
  | write (time : TimeStr) (alarmFlag : UInt8)
  | reboot

/-- One operation; a restart loses the RAM variables and runs `Log_Init`. -/
def Op.run (t : LogType) (ms : Eeprom × Log) : Op → Eeprom × Log
  | .write time alarmFlag => writeLog ms.1 ms.2 t time.bytes alarmFlag
  | .reboot => logInit ms.1 powerOn

/-- The entries of a run, newest first, in front of the history `es`. -/
def Op.history (es : List Entry) : List Op → List Entry
  | [] => es
  | .write time alarmFlag :: ops => history (time.entry alarmFlag :: es) ops
  | .reboot :: ops => history es ops

section Ops

variable {t : LogType} {w : ℕ}

/-- A write appends to the history of which the ring holds the last 300 entries. -/
theorem WellFormed.writeLog_take {m : Eeprom} {s : Log} {es : List Entry}
    (h : WellFormed m s t w (es.take 300)) (time : TimeStr) (alarmFlag : UInt8) :
    WellFormed (Log.writeLog m s t time.bytes alarmFlag).1 (Log.writeLog m s t time.bytes alarmFlag).2
      t (Ring.succ 300 w) ((time.entry alarmFlag :: es).take 300) := by
  have hpush : Ring.push 300 (time.entry alarmFlag) (es.take 300) =
      (time.entry alarmFlag :: es).take 300 := by
    rw [Ring.push, List.take_succ_cons, List.take_succ_cons, List.take_take,
      Nat.min_eq_left (by norm_num)]
  rw [← hpush]
  exact h.writeLog time alarmFlag

/-- A run keeps the last 300 entries. -/
theorem run_wellFormed (ops : List Op) : ∀ (ms : Eeprom × Log) (w : ℕ) (es : List Entry),
    WellFormed ms.1 ms.2 t w (es.take 300) →
    ∃ w', WellFormed (ops.foldl (Op.run t) ms).1 (ops.foldl (Op.run t) ms).2 t w'
      ((Op.history es ops).take 300) := by
  induction ops with
  | nil => exact fun ms w es h => ⟨w, h⟩
  | cons op ops ih =>
    intro ms w es h
    rw [List.foldl_cons]
    cases op with
    | write time alarmFlag => exact ih _ _ _ (h.writeLog_take time alarmFlag)
    | reboot => exact ih _ _ _ (h.toStored.logInit powerOn)

/-- Browsing down shows the last 300 entries written since the log was erased, newest first, in as
    many pages as announced, the first one being the only one with `LOG_HEAD`. -/
theorem browse_shows_history {m : Eeprom} (h : Erased m t) (s : Log) (ops : List Op) :
    let ms := ops.foldl (Op.run t) (logInit m s)
    let es := (Op.history [] ops).take 300
    (∃ pages : List Log,
      (∀ fuel, getWebLogPageTotal ms.1 t ms.2 ≤ fuel → browseWeb ms.1 t fuel ms.2 = some pages) ∧
      pages.length = getWebLogPageTotal ms.1 t ms.2 ∧
      (pages.map Log.crtWebPageLogData).flatten = webText es ∧
      ∀ i (hi : i < pages.length), pages[i].crtWebPageLogData = webText (chunk 10 i es) ∧
        (pages[i].webLogPageFlag &&& logHead ≠ 0 ↔ i = 0)) ∧
    (∃ pages : List Log,
      (∀ fuel, total 3 es.length ≤ fuel → browseLcd ms.1 t fuel ms.2 = some pages) ∧
      pages.length = total 3 es.length ∧
      (pages.map fun s => s.crtLCDPageLogData.filter (·.headD 0 ≠ 0)).flatten =
        es.map Entry.text ∧
      ∀ i (hi : i < pages.length),
        pages[i].crtLCDPageLogData = lcdRows ((chunk 3 i es).map Entry.text) ∧
        (pages[i].LCDLogPageFlag &&& logHead ≠ 0 ↔ i = 0)) := by
  intro ms es
  obtain ⟨w, hw⟩ := run_wellFormed ops (logInit m s) 0 [] (by
    rw [List.take_nil]; exact h.logInit s)
  have hwf : WellFormed ms.1 ms.2 t w es := hw
  obtain ⟨web, hwlen, hwat, hwrun⟩ := browseWeb_spec hwf
  obtain ⟨lcd, hllen, hlat, hlrun⟩ := browseLcd_spec hwf
  rw [getWebLogPageTotal_eq hwf]
  refine ⟨⟨web, hwrun, hwlen, ?_, fun i hi => ⟨(hwat i hi).data, ?_⟩⟩,
    ⟨lcd, hlrun, hllen, ?_, fun i hi => ⟨(hlat i hi).data, ?_⟩⟩⟩
  · have hpages : web.map Log.crtWebPageLogData =
        ((List.range (total 10 es.length)).map fun i => chunk 10 i es).map webText := by
      refine List.ext_getElem (by simp [hwlen]) fun i h0 h1 => ?_
      simpa using (hwat i (by simpa using h0)).data
    rw [hpages, flatten_webText, flatten_chunks (by norm_num)]
  · rw [(hwat i hi).flag, pageFlag_head]
  · have hpages : (lcd.map fun s => s.crtLCDPageLogData.filter (·.headD 0 ≠ 0)) =
        ((List.range (total 3 es.length)).map fun i => chunk 3 i es).map (List.map Entry.text) := by
      refine List.ext_getElem (by simp [hllen]) fun i h0 h1 => ?_
      have hd := (hlat i (by simpa using h0)).data
      simp only [List.getElem_map, List.getElem_range, hd, filter_lcdRows]
    rw [hpages, ← List.map_flatten, flatten_chunks (by norm_num)]
  · rw [(hlat i hi).flag, pageFlag_head]

end Ops

theorem browse_shows_two_entries :
    Erased newEeprom LogType.AOPN ∧
    ∃ pages : List Log,
      browseWeb ([Op.write .sample 2, .reboot, .write .sample 1].foldl (Op.run LogType.AOPN)
          (logInit newEeprom powerOn)).1 LogType.AOPN 1
        ([Op.write .sample 2, .reboot, .write .sample 1].foldl (Op.run LogType.AOPN)
          (logInit newEeprom powerOn)).2 = some pages ∧
      (pages.map Log.crtWebPageLogData).flatten =
        webText [TimeStr.sample.entry 1, TimeStr.sample.entry 2] := by
  have h := erased_newEeprom LogType.AOPN
  refine ⟨h, ?_⟩
  obtain ⟨⟨pages, hrun, -, hdata, -⟩, -⟩ := browse_shows_history h powerOn
    [Op.write .sample 2, .reboot, .write .sample 1]
  exact ⟨pages, hrun 1 (by decide +kernel), hdata⟩

end Log

end VectorFence
