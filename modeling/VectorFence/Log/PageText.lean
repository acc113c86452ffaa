import Mathlib.Data.List.TakeWhile
import VectorFence.Log.Clear
import VectorFence.Log.Cursor
import VectorFence.Log.Undo

/-! How long a page of the web reader gets. A command comes to at most ten slots, one after the
    other from where it starts to walk, and its page has the entries up to the first empty one:

        slot ──▶ 20 bytes, the last one replaced by NUL ──▶ the text up to the first NUL, and a '#'

    Where the slots are is told by the pointers and the cursor alone. -/

namespace VectorFence

namespace Log

open Eeprom Pager

/-- The next `k` slots of a command from an address on. -/
def slotsFrom (m : Eeprom) (t : LogType) (c : PageCmd) (s : Log) : ℕ → ℕ → List ℕ
  | 0, _ => []
  | k + 1, a =>
    match stepAddr m t c (s.setReadAddr t a) with
    | none => []
    | some b => b :: slotsFrom m t c s k b

/-- The entries up to the first empty one. -/
def shownEntries (es : List (List UInt8)) : List (List UInt8) := es.takeWhile fun e => e.headD 0 ≠ 0

/-- The entries of the page of a command. -/
def pageEntries (m : Eeprom) (t : LogType) (c : PageCmd) (s : Log) : List (List UInt8) :=
  shownEntries ((slotsFrom m t c s eachWebPageLogNum (walkStart t .web c s)).map (entryAt m))

/-- What entries take on a page, each with its `#`. -/
def rowsLen (es : List (List UInt8)) : ℕ := (es.map fun e => (webRow e).length).sum

section PageText

variable {m : Eeprom} {s s' : Log} {t : LogType} {c : PageCmd}

/-! ### The slots -/

/-- The next slot depends on the cursor and the write pointer. -/
theorem stepAddr_congr (hc : s.crtReadAddrVal t = s'.crtReadAddrVal t)
    (hn : s.nextWriteAddrVal t = s'.nextWriteAddrVal t) : stepAddr m t c s = stepAddr m t c s' := by
  cases c with
  | previous =>
    show previousReadAddr t s = previousReadAddr t s'
    rw [previousReadAddr, previousReadAddr, newestAddr, newestAddr, hc, hn]
  | _ =>
    show nextReadAddr m t s = nextReadAddr m t s'
    rw [nextReadAddr, nextReadAddr, hc]

theorem slotsFrom_congr (hn : s.nextWriteAddrVal t = s'.nextWriteAddrVal t) (k a : ℕ) :
    slotsFrom m t c s k a = slotsFrom m t c s' k a := by
  induction k generalizing a with
  | zero => rfl
  | succ k ih =>
    have hstep : stepAddr m t c (s.setReadAddr t a) = stepAddr m t c (s'.setReadAddr t a) :=
      stepAddr_congr (by simp [setReadAddr]) hn
    simp only [slotsFrom, hstep, ih]

theorem length_slotsFrom (k a : ℕ) : (slotsFrom m t c s k a).length ≤ k := by
  induction k generalizing a with
  | zero => rfl
  | succ k ih =>
    rw [slotsFrom]
    rcases stepAddr m t c (s.setReadAddr t a) with _ | b
    · exact Nat.zero_le _
    · exact Nat.succ_le_succ (ih b)

/-- A step reads the entry at its slot. -/
theorem stepRead_entry (c : PageCmd) (s : Log) :
    (stepRead m t c s).2 = ((stepAddr m t c s).map (entryAt m)).getD blankEntry := by
  cases c with
  | previous =>
    simp only [stepRead, readPreviousLog, stepAddr]
    rcases previousReadAddr t s with _ | a <;> rfl
  | _ =>
    simp only [stepRead, readNextLog, stepAddr]
    rcases nextReadAddr m t s with _ | a <;> rfl

/-- A run of reads yields the entries of the slots. -/
theorem readRun_entries (c : PageCmd) (k : ℕ) (s : Log) : (readRun (stepRead m t c) k s).2 =
    shownEntries ((slotsFrom m t c s k (s.crtReadAddrVal t)).map (entryAt m)) := by
  induction k generalizing s with
  | zero => rfl
  | succ k ih =>
    have hself : stepAddr m t c (s.setReadAddr t (s.crtReadAddrVal t)) = stepAddr m t c s := by
      rw [setReadAddr_self rfl]
    have hentry := stepRead_entry (m := m) (t := t) c s
    have hcursor := stepRead_cursor (m := m) (t := t) (s := s) c
    rw [readRun, slotsFrom, hself]
    rcases ha : stepAddr m t c s with _ | a
    · rw [ha, Option.map_none, Option.getD_none] at hentry
      rw [if_pos (by rw [hentry]; rfl)]
      rfl
    · rw [ha, Option.map_some, Option.getD_some] at hentry
      rw [ha, Option.getD_some] at hcursor
      simp only [hentry, List.map_cons, shownEntries, List.takeWhile_cons]
      by_cases h0 : (entryAt m a).headD 0 = 0
      · simp only [h0, if_true, ne_eq, not_true_eq_false, decide_false, Bool.false_eq_true, if_false]
      · have hrest := ih (stepRead m t c s).1
        rw [hcursor, slotsFrom_congr (congrFun (stepRead_next c) t)] at hrest
        simp only [h0, if_false, ne_eq, not_false_eq_true, decide_true, if_true, hrest, shownEntries]

/-! ### The text -/

theorem stepRead_data (c : PageCmd) (s : Log) :
    (stepRead m t c s).1.crtWebPageLogData = s.crtWebPageLogData := by
  cases c with
  | previous =>
    show (readPreviousLog m t s).1.crtWebPageLogData = _
    rw [readPreviousLog_frame]
  | _ =>
    show (readNextLog m t s).1.crtWebPageLogData = _
    rw [readNextLog_frame]

theorem readRun_data (c : PageCmd) (k : ℕ) (s : Log) :
    (readRun (stepRead m t c) k s).1.crtWebPageLogData = s.crtWebPageLogData := by
  induction k generalizing s with
  | zero => rfl
  | succ k ih =>
    simp only [readRun]
    split_ifs
    · exact stepRead_data c s
    · exact (ih _).trans (stepRead_data c s)

theorem stepRead_stepPut (c : PageCmd) (i : ℕ) (x : List UInt8) (s : Log) :
    stepRead m t c (stepPut .web c i x s) =
      (stepPut .web c i x (stepRead m t c s).1, (stepRead m t c s).2) := by
  cases c with
  | previous => exact readPreviousLog_prependWebRow i x s
  | _ => exact readNextLog_appendWebRow i x s

/-- A row is as long before the others as behind them. -/
theorem length_stepPut (c : PageCmd) (i : ℕ) (x : List UInt8) (s : Log) :
    (stepPut .web c i x s).crtWebPageLogData.length = s.crtWebPageLogData.length +
    (webRow x).length := by
  cases c with
  | previous => exact (List.length_append ..).trans (Nat.add_comm ..)
  | _ => exact List.length_append ..

theorem length_putAll (c : PageCmd) (l : List (List UInt8)) (i : ℕ) (s : Log) :
    (putAll (stepPut .web c) i l s).crtWebPageLogData.length =
      s.crtWebPageLogData.length + rowsLen l := by
  induction l generalizing i s with
  | nil => rfl
  | cons x l ih =>
    rw [putAll, ih, length_stepPut, rowsLen, rowsLen, List.map_cons, List.sum_cons, Nat.add_assoc]

theorem enter_data (c : PageCmd) (s : Log) : (enter t .web c s).crtWebPageLogData = [] := by
  cases c <;> rfl

/-- A page is as long as its entries and their `#`s. -/
theorem length_page (c : PageCmd) (s : Log) :
    (page m t .web c s).crtWebPageLogData.length = rowsLen (pageEntries m t c s) := by
  have hnext : (enter t .web c s).nextWriteAddrVal = s.nextWriteAddrVal := by cases c <;> rfl
  have hcursor : (enter t .web c s).crtReadAddrVal t = walkStart t .web c s := by
    simp [enter, setReadAddr]
  have hlen : (page m t .web c s).crtWebPageLogData = (walk m t .web c s).1.crtWebPageLogData := by
    rw [page_eq_walk, setLastNum]
  rw [hlen, walk, pageLoop_eq (stepRead_stepPut c), length_putAll, readRun_data, enter_data,
    readRun_entries, hcursor, slotsFrom_congr (congrFun hnext t), List.length_nil, Nat.zero_add]
  rfl

/-! ### How long it can get -/

theorem length_pageEntries (c : PageCmd) (s : Log) : (pageEntries m t c s).length ≤ 10 := by
  have htake := (List.takeWhile_sublist (l := (slotsFrom m t c s eachWebPageLogNum
    (walkStart t .web c s)).map (entryAt m)) fun e => decide (e.headD 0 ≠ 0)).length_le
  rw [List.length_map] at htake
  exact htake.trans (length_slotsFrom ..)

/-- A row has at most the 19 bytes of an entry and the `#`. -/
theorem length_webRow_entryAt (a : ℕ) : (webRow (entryAt m a)).length ≤ 20 := by
  have hsize : (entryAt m a).length = 20 := by rw [entryAt, List.length_set, length_read, eachLogSize]
  have hnul : 0 ∈ entryAt m a := by
    rw [entryAt]
    exact List.mem_set (by rw [length_read, eachLogSize]; omega) 0
  have hsub : (cstr (entryAt m a)).Sublist (entryAt m a) := List.takeWhile_sublist _
  have hshort : (cstr (entryAt m a)).length ≠ 20 := by
    intro hlen
    have hall := List.takeWhile_eq_self_iff.mp (hsub.eq_of_length (hlen.trans hsize.symm)) 0 hnul
    simp at hall
  have hle := hsub.length_le
  rw [webRow, List.length_append, List.length_singleton]
  omega

/-- Nine entries take at most 180 bytes, ten at most 200. -/
theorem rowsLen_pageEntries (c : PageCmd) (s : Log) :
    rowsLen (pageEntries m t c s) ≤ 20 * (pageEntries m t c s).length := by
  have hrow : ∀ n ∈ (pageEntries m t c s).map fun e => (webRow e).length, n ≤ 20 := by
    intro n hn
    obtain ⟨e, he, rfl⟩ := List.mem_map.mp hn
    obtain ⟨a, -, rfl⟩ := List.mem_map.mp ((List.takeWhile_sublist _).subset he)
    exact length_webRow_entryAt a
  have hsum := List.sum_le_card_nsmul _ _ hrow
  rw [List.length_map, smul_eq_mul, Nat.mul_comm] at hsum
  exact hsum

/-- A page fills `crtWebPageLogData` at most; it is the NUL that goes behind. -/
theorem length_page_le (c : PageCmd) (s : Log) :
    (page m t .web c s).crtWebPageLogData.length ≤ eachWebPageLogNum * eachLogSize := by
  have hrows := rowsLen_pageEntries (m := m) (t := t) c s
  have hten := length_pageEntries (m := m) (t := t) c s
  rw [length_page, eachWebPageLogNum, eachLogSize]
  omega

/-- Entries without a NUL among their 19 bytes take 20 bytes each. -/
theorem rowsLen_of_full {es : List (List UInt8)} (h : ∀ e ∈ es, (webRow e).length = 20) :
    rowsLen es = 20 * es.length := by
  rw [rowsLen, List.map_congr_left h, List.map_const', List.sum_replicate, smul_eq_mul, Nat.mul_comm]

/-- The page of a history takes what its entries take. -/
theorem WebAt.length_data {w i : ℕ} {es : List Entry} (h : WebAt m t w es i s) :
    s.crtWebPageLogData.length = rowsLen ((chunk 10 i es).map Entry.text) := by
  rw [h.data, webText, List.length_flatten, rowsLen, List.map_map, List.map_map]
  rfl

/-! ### The number of the page -/

theorem stepRead_pageNum (c : PageCmd) (s : Log) :
    (stepRead m t c s).1.crtWebLogPageNum = s.crtWebLogPageNum := by
  cases c with
  | previous =>
    show (readPreviousLog m t s).1.crtWebLogPageNum = _
    rw [readPreviousLog_frame]
  | _ =>
    show (readNextLog m t s).1.crtWebLogPageNum = _
    rw [readNextLog_frame]

theorem pageLoop_pageNum (c : PageCmd) (k i : ℕ) (s : Log) :
    (pageLoop (stepRead m t c) (stepPut .web c) k i s).1.crtWebLogPageNum = s.crtWebLogPageNum := by
  induction k generalizing i s with
  | zero => rfl
  | succ k ih =>
    simp only [pageLoop]
    split_ifs
    · exact stepRead_pageNum c s
    · have hput (x : List UInt8) (s : Log) :
          (stepPut .web c i x s).crtWebLogPageNum = s.crtWebLogPageNum := by cases c <;> rfl
      rw [ih, hput, stepRead_pageNum]

/-- The number of the page is a byte. -/
theorem page_pageNum_lt (c : PageCmd) (s : Log) : (page m t .web c s).crtWebLogPageNum < 256 := by
  have hset : (page m t .web c s).crtWebLogPageNum = (walk m t .web c s).1.crtWebLogPageNum := by
    rw [page_eq_walk, setLastNum]
  rw [hset, walk, pageLoop_pageNum]
  cases c with
  | first => exact (by norm_num : 1 < 256)
  | _ => exact Nat.mod_lt _ (by norm_num)

/-- Starting the logs leaves the page alone. -/
theorem logInit_page (m : Eeprom) (s : Log) :
    (logInit m s).2.crtWebPageLogData = s.crtWebPageLogData ∧
      (logInit m s).2.crtWebLogPageNum = s.crtWebLogPageNum := by
  obtain ⟨next, hnext⟩ := logInit_frame m s
  rw [hnext]
  exact ⟨rfl, rfl⟩

/-- A log that is cleared has no page. -/
theorem fastClearLog_page (m : Eeprom) (s : Log) (t : LogType) :
    (fastClearLog m s t).2.crtWebPageLogData = [] ∧
      (fastClearLog m s t).2.crtWebLogPageNum = s.crtWebLogPageNum := by
  simp only [fastClearLog]
  exact logInit_page _ { s with crtWebPageLogData := [] }

end PageText

end Log

end VectorFence
