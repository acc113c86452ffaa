import VectorFence.Lib.Run
import VectorFence.Log.Paging

/-! Where the read cursor goes. The six page commands share one shape: a command takes the cursor to
    its start (`walkStart`), which is a jump of several slots when the paging direction changes, and
    then walks the ring one slot at a time.

        first      ──▶ the write pointer, down
        next       ──▶ the cursor, or (last - 1) slots down after a page read upwards
        previous   ──▶ the cursor, or (last - 1) slots up after a page read downwards

    A single step wraps at the ends of the ring, a jump does not. So a command stays in the ring
    exactly when the jump does (`stays_iff`), the address just past the ring on the side the walk
    comes from being still all right. -/

namespace VectorFence

/-- The two readers of the log. -/
inductive Browser where | web | lcd
  deriving DecidableEq, Repr

/-- What a reader can ask for. -/
inductive PageCmd where | first | next | previous
  deriving DecidableEq, Repr

namespace Log

open Eeprom

/-- The page function behind a command. -/
def page (m : Eeprom) (t : LogType) : Browser → PageCmd → Log → Log
  | .web, .first => readWebFirstPageLog m t
  | .web, .next => readWebNextPageLog m t
  | .web, .previous => readWebPreviousPageLog m t
  | .lcd, .first => readLCDFirstPageLog m t
  | .lcd, .next => readLCDNextPageLog m t
  | .lcd, .previous => readLCDPreviousPageLog m t

/-! ### The common shape of the page commands -/

def pageSize : Browser → ℕ
  | .web => eachWebPageLogNum
  | .lcd => eachLcdPageLogNum

def lastDir : Browser → Log → ReadDir
  | .web, s => s.lastWebPageReadDir
  | .lcd, s => s.lastLCDPageReadDir

def lastNum : Browser → Log → ℕ
  | .web, s => s.lastWebPageLogNum
  | .lcd, s => s.lastLCDPageLogNum

def setLastNum : Browser → ℕ → Log → Log
  | .web, n, s => { s with lastWebPageLogNum := n }
  | .lcd, n, s => { s with lastLCDPageLogNum := n }

/-- Where a command starts to walk. -/
def walkStart (t : LogType) (b : Browser) : PageCmd → Log → ℕ
  | .first, s => s.nextWriteAddrVal t
  | .next, s =>
    if lastDir b s = .up then u32 (s.crtReadAddrVal t + (-(lastNum b s - 1) : ℤ) * eachLogSize)
    else s.crtReadAddrVal t
  | .previous, s =>
    if lastDir b s = .down then u32 (s.crtReadAddrVal t + (lastNum b s - 1 : ℤ) * eachLogSize)
    else s.crtReadAddrVal t

/-- The other variables as a command sets them before its first read. -/
def prepare : Browser → PageCmd → Log → Log
  | .web, .first, s => { s with
      crtWebLogPageNum := 1, webLogPageFlag := logHead, lastWebPageLogNum := 0
      crtWebPageLogData := [], lastWebPageReadDir := .down }
  | .web, .next, s => { s with
      crtWebLogPageNum := (s.crtWebLogPageNum + 1) % 256, webLogPageFlag := logMiddle
      crtWebPageLogData := [], lastWebPageReadDir := .down }
  | .web, .previous, s => { s with
      crtWebLogPageNum := (s.crtWebLogPageNum + 255) % 256, webLogPageFlag := logMiddle
      crtWebPageLogData := [], lastWebPageReadDir := .up }
  | .lcd, .first, s => { s with
      LCDLogPageFlag := logHead, crtLCDPageLogData := blankLcdPage, lastLCDPageReadDir := .down }
  | .lcd, .next, s => { s with
      LCDLogPageFlag := logMiddle, crtLCDPageLogData := blankLcdPage, lastLCDPageReadDir := .down }
  | .lcd, .previous, s => { s with
      LCDLogPageFlag := logMiddle, crtLCDPageLogData := blankLcdPage, lastLCDPageReadDir := .up }

/-- The state in which a command starts to walk. -/
def enter (t : LogType) (b : Browser) (c : PageCmd) (s : Log) : Log :=
  (prepare b c s).setReadAddr t (walkStart t b c s)

def stepRead (m : Eeprom) (t : LogType) : PageCmd → Log → Log × List UInt8
  | .previous => readPreviousLog m t
  | _ => readNextLog m t

def stepAddr (m : Eeprom) (t : LogType) : PageCmd → Log → Option ℕ
  | .previous => previousReadAddr t
  | _ => nextReadAddr m t

def stepPut : Browser → PageCmd → ℕ → List UInt8 → Log → Log
  | .web, .previous => prependWebRow
  | .web, _ => appendWebRow
  | .lcd, .previous => putLcdRowUp
  | .lcd, _ => putLcdRow

/-- The walk of a command and the number of entries it met. -/
def walk (m : Eeprom) (t : LogType) (b : Browser) (c : PageCmd) (s : Log) : Log × ℕ :=
  pageLoop (stepRead m t c) (stepPut b c) (pageSize b) 0 (enter t b c s)

/-- The length of the page; `ReadLCDFirstPageLog` keeps the old one on an empty log. -/
def pageLen (m : Eeprom) (t : LogType) (b : Browser) (c : PageCmd) (s : Log) : ℕ :=
  if b = .lcd ∧ c = .first ∧ (walk m t b c s).2 = 0 then lastNum b s else (walk m t b c s).2

section Shape

variable {m : Eeprom} {t : LogType}

theorem le_pageLoop {read : Log → Log × List UInt8} {put : ℕ → List UInt8 → Log → Log} :
    ∀ (k i : ℕ) (s : Log), i ≤ (pageLoop read put k i s).2
  | 0, _, _ => le_rfl
  | k + 1, i, s => by
      simp only [pageLoop]
      split_ifs
      · exact le_rfl
      · exact (Nat.le_succ i).trans (le_pageLoop k (i + 1) _)

theorem readLCDFirstPageLog_eq_walk (s : Log) : readLCDFirstPageLog m t s =
    setLastNum .lcd (pageLen m t .lcd .first s) (walk m t .lcd .first s).1 := by
  by_cases h0 : (readFirstLog m t (prepare .lcd .first s)).2.headD 0 = 0
  · have hwalk : walk m t .lcd .first s = ((readFirstLog m t (prepare .lcd .first s)).1, 0) :=
      if_pos h0
    have hkeep : lastNum .lcd s =
        (readFirstLog m t (prepare .lcd .first s)).1.lastLCDPageLogNum := by
      rw [readFirstLog, readNextLog_frame]; rfl
    rw [pageLen, hwalk, if_pos ⟨rfl, rfl, rfl⟩, hkeep]
    exact if_pos h0
  · have hwalk : walk m t .lcd .first s = pageLoop (readNextLog m t) putLcdRow 2 1
        (putLcdRow 0 (readFirstLog m t (prepare .lcd .first s)).2
          (readFirstLog m t (prepare .lcd .first s)).1) := if_neg h0
    have hpos : (walk m t .lcd .first s).2 ≠ 0 := by
      rw [hwalk]
      exact Nat.one_le_iff_ne_zero.mp (le_pageLoop ..)
    rw [pageLen, if_neg fun h => hpos h.2.2, hwalk]
    exact if_neg h0

/-- Without a jump the cursor stays where it is. -/
theorem enter_next {b : Browser} {s : Log} (h : lastDir b s = .down) :
    enter t b .next s = prepare b .next s := by
  have hstart : walkStart t b .next s = s.crtReadAddrVal t := by
    rw [walkStart, if_neg (by rw [h]; decide)]
  rw [enter, hstart]
  cases b <;> exact setReadAddr_self rfl

theorem enter_previous {b : Browser} {s : Log} (h : lastDir b s = .up) :
    enter t b .previous s = prepare b .previous s := by
  have hstart : walkStart t b .previous s = s.crtReadAddrVal t := by
    rw [walkStart, if_neg (by rw [h]; decide)]
  rw [enter, hstart]
  cases b <;> exact setReadAddr_self rfl

/-- Every page function is its walk, the length of the page being kept for the next jump. -/
theorem page_eq_walk (b : Browser) (c : PageCmd) (s : Log) :
    page m t b c s = setLastNum b (pageLen m t b c s) (walk m t b c s).1 := by
  cases b with
  | web =>
    have hlen : pageLen m t .web c s = (walk m t .web c s).2 := if_neg (by simp)
    rw [hlen, walk]
    cases c with
    | first => exact readWebFirstPageLog_eq s
    | next =>
      unfold page readWebNextPageLog
      cases hd : s.lastWebPageReadDir with
      | up => simp only [enter, walkStart, lastDir, hd, if_true]; rfl
      | down =>
        rw [enter_next (b := .web) hd]
        simp only [hd, reduceCtorEq, if_false]; rfl
    | previous =>
      unfold page readWebPreviousPageLog
      cases hd : s.lastWebPageReadDir with
      | down => simp only [enter, walkStart, lastDir, hd, if_true]; rfl
      | up =>
        rw [enter_previous (b := .web) hd]
        simp only [hd, reduceCtorEq, if_false]; rfl
  | lcd =>
    cases c with
    | first => exact readLCDFirstPageLog_eq_walk s
    | next =>
      rw [pageLen, if_neg (by simp), walk]
      unfold page readLCDNextPageLog
      cases hd : s.lastLCDPageReadDir with
      | up => simp only [enter, walkStart, lastDir, hd, if_true]; rfl
      | down =>
        rw [enter_next (b := .lcd) hd]
        simp only [hd, reduceCtorEq, if_false]; rfl
    | previous =>
      rw [pageLen, if_neg (by simp), walk]
      unfold page readLCDPreviousPageLog
      cases hd : s.lastLCDPageReadDir with
      | down => simp only [enter, walkStart, lastDir, hd, if_true]; rfl
      | up =>
        rw [enter_previous (b := .lcd) hd]
        simp only [hd, reduceCtorEq, if_false]; rfl

end Shape

/-! ### Staying in the ring -/

/-- A slot address of the ring of `t`. -/
def InRing (t : LogType) (a : ℕ) : Prop :=
  eachTypeLogBasedAddr t ≤ a ∧ a ≤ eachTypeLogMaxAddr t ∧
    (a - eachTypeLogBasedAddr t) % eachLogSize = 0

instance (t : LogType) (a : ℕ) : Decidable (InRing t a) := by unfold InRing; infer_instance

/-- The addresses a page loop hands to `AT24CXX_Read`. -/
def loopReads (addr : Log → Option ℕ) (read : Log → Log × List UInt8)
    (put : ℕ → List UInt8 → Log → Log) : ℕ → ℕ → Log → List ℕ
  | 0, _, _ => []
  | fuel + 1, i, s =>
    let r := read s
    (addr s).toList ++
      if r.2.headD 0 = 0 then [] else loopReads addr read put fuel (i + 1) (put i r.2 r.1)

/-- The addresses a page command hands to `AT24CXX_Read`. -/
def reads (m : Eeprom) (t : LogType) (b : Browser) (c : PageCmd) (s : Log) : List ℕ :=
  loopReads (stepAddr m t c) (stepRead m t c) (stepPut b c) (pageSize b) 0 (enter t b c s)

/-- The cursor is a slot address of its ring at every read of a command and after it. -/
def Stays (m : Eeprom) (t : LogType) (b : Browser) (c : PageCmd) (s : Log) : Prop :=
  InRing t ((page m t b c s).crtReadAddrVal t) ∧ ∀ a ∈ reads m t b c s, InRing t a

/-- A walk may start on a slot of the ring, or just past the end it walks away from. -/
def MayStart (t : LogType) (c : PageCmd) (a : ℕ) : Prop :=
  InRing t a ∨
    if c = .previous then a + eachLogSize = eachTypeLogBasedAddr t
    else a = eachTypeLogMaxAddr t + eachLogSize

section Ring

variable {m : Eeprom} {s : Log} {t : LogType}

theorem inRing_iff {a : ℕ} : InRing t a ↔ ∃ k, k < 300 ∧ a = slotAddr t k := by
  rw [InRing, base_eq, max_eq, eachLogSize]
  constructor
  · rintro ⟨h0, h1, h2⟩
    exact ⟨(a - (256 + 6000 * t)) / 20, by omega, by rw [slotAddr_eq]; omega⟩
  · rintro ⟨k, hk, rfl⟩
    rw [slotAddr_eq]; omega

theorem inRing_slotAddr {k : ℕ} (hk : k < 300) : InRing t (slotAddr t k) :=
  inRing_iff.mpr ⟨k, hk, rfl⟩

theorem inRing_base : InRing t (eachTypeLogBasedAddr t) := by
  rw [← slotAddr_zero]; exact inRing_slotAddr (by norm_num)

theorem inRing_max : InRing t (eachTypeLogMaxAddr t) := by
  rw [← slotAddr_last]; exact inRing_slotAddr (by norm_num)

theorem inRing_pred {a : ℕ} (ha : a < 0x100000000) (h0 : a ≠ eachTypeLogBasedAddr t) :
    InRing t (u32 (a - eachLogSize)) ↔ InRing t a ∨ a = eachTypeLogMaxAddr t + eachLogSize := by
  have ht := t.isLt
  rw [base_eq] at h0
  rcases Nat.lt_or_ge a 20 with hlt | hge
  · have hu : u32 (a - eachLogSize) = a + 0x100000000 - 20 := by rw [u32, eachLogSize]; omega
    rw [hu]
    simp only [InRing, base_eq, max_eq, eachLogSize]
    omega
  · rw [u32_eq (n := a - 20) (by rw [eachLogSize]; omega) (by omega)]
    simp only [InRing, base_eq, max_eq, eachLogSize]
    omega

theorem inRing_succ {a : ℕ} (ha : a < 0x100000000) (h0 : a ≠ eachTypeLogMaxAddr t) :
    InRing t (u32 (a + eachLogSize)) ↔ InRing t a ∨ a + eachLogSize = eachTypeLogBasedAddr t := by
  have ht := t.isLt
  rw [max_eq] at h0
  rcases Nat.lt_or_ge (a + 20) 0x100000000 with hlt | hge
  · rw [u32_eq (n := a + 20) (by rw [eachLogSize]; omega) hlt]
    simp only [InRing, base_eq, max_eq, eachLogSize]
    omega
  · have hu : u32 (a + eachLogSize) = a + 20 - 0x100000000 := by rw [u32, eachLogSize]; omega
    rw [hu]
    simp only [InRing, base_eq, max_eq, eachLogSize]
    omega

/-- One step down reads a slot of the ring exactly from where a walk may start. -/
theorem nextReadAddr_inRing (hc : s.crtReadAddrVal t < 0x100000000) :
    (∀ a ∈ nextReadAddr m t s, InRing t a) ↔ MayStart t .next (s.crtReadAddrVal t) := by
  rw [MayStart, if_neg (by decide), nextReadAddr]
  by_cases h0 : s.crtReadAddrVal t = eachTypeLogBasedAddr t
  · rw [if_pos h0, h0]
    refine iff_of_true ?_ (Or.inl inRing_base)
    split_ifs
    · simpa using inRing_max
    · simp
  · rw [if_neg h0, ← inRing_pred hc h0]
    simp

/-- The newest entry's address as `ReadPreviousLog` computes it is in the ring or just below it. -/
theorem newestAddr_mayStart (hn : InRing t (s.nextWriteAddrVal t)) :
    MayStart t .previous (newestAddr t s) := by
  obtain ⟨w, hw, hs⟩ := inRing_iff.mp hn
  rw [MayStart, if_pos rfl, newestAddr, hs]
  rcases Nat.eq_zero_or_pos w with rfl | hpos
  · right
    have ht := t.isLt
    rw [u32, slotAddr_eq, base_eq, eachLogSize]
    omega
  · left
    rw [u32_slot_pred t hpos.ne' hw.le]
    exact inRing_slotAddr (by omega)

theorem previousReadAddr_inRing (hn : InRing t (s.nextWriteAddrVal t))
    (hc : s.crtReadAddrVal t < 0x100000000) :
    (∀ a ∈ previousReadAddr t s, InRing t a) ↔ MayStart t .previous (s.crtReadAddrVal t) := by
  rw [previousReadAddr]
  by_cases h0 : s.crtReadAddrVal t = eachTypeLogMaxAddr t
  · rw [if_pos h0, h0]
    exact iff_of_true (by simpa using inRing_base) (Or.inl inRing_max)
  · rw [if_neg h0]
    by_cases h1 : s.crtReadAddrVal t = newestAddr t s
    · rw [if_pos h1, h1]
      exact iff_of_true (by simp) (newestAddr_mayStart hn)
    · rw [if_neg h1, MayStart, if_pos rfl, ← inRing_succ hc h0]
      simp

/-- Where a reader may start it reads slots of the ring, and leaves its cursor on one. -/
theorem stepRead_inRing (c : PageCmd) (hn : InRing t (s.nextWriteAddrVal t))
    (hc : s.crtReadAddrVal t < 0x100000000) :
    (∀ a ∈ stepAddr m t c s, InRing t a) ↔ MayStart t c (s.crtReadAddrVal t) := by
  cases c with
  | first => exact nextReadAddr_inRing hc
  | next => exact nextReadAddr_inRing hc
  | previous => exact previousReadAddr_inRing hn hc

theorem stepRead_next (c : PageCmd) :
    (stepRead m t c s).1.nextWriteAddrVal = s.nextWriteAddrVal := by
  cases c with
  | previous =>
    show (readPreviousLog m t s).1.nextWriteAddrVal = _
    unfold readPreviousLog
    cases previousReadAddr t s with
    | none => rfl
    | some a => dsimp only; split_ifs <;> rfl
  | _ =>
    show (readNextLog m t s).1.nextWriteAddrVal = _
    rw [readNextLog_frame]

/-- The cursor after a step: the address read, or where the walk ended. -/
theorem stepRead_cursor (c : PageCmd) : (stepRead m t c s).1.crtReadAddrVal t =
    (stepAddr m t c s).getD
      (if c = .previous then s.nextWriteAddrVal t else s.crtReadAddrVal t) := by
  cases c with
  | previous =>
    show (readPreviousLog m t s).1.crtReadAddrVal t = (previousReadAddr t s).getD _
    unfold readPreviousLog
    cases previousReadAddr t s with
    | none => simp [updateLogPageFlag]
    | some a => dsimp only; split_ifs <;> simp [updateLogPageFlag]
  | _ =>
    show (readNextLog m t s).1.crtReadAddrVal t = (nextReadAddr m t s).getD _
    unfold readNextLog
    cases nextReadAddr m t s with
    | none => rfl
    | some a => dsimp only; split_ifs <;> simp [updateLogPageFlag]

theorem nextReadAddr_none (h : nextReadAddr m t s = none) :
    s.crtReadAddrVal t = eachTypeLogBasedAddr t := by
  rw [nextReadAddr] at h
  split_ifs at h with h0 h1
  exact h0

/-- A step from where a walk may start leaves the cursor in the ring. -/
theorem stepRead_stays (c : PageCmd) (hn : InRing t (s.nextWriteAddrVal t))
    (hc : s.crtReadAddrVal t < 0x100000000) (h : MayStart t c (s.crtReadAddrVal t)) :
    InRing t ((stepRead m t c s).1.crtReadAddrVal t) := by
  have hread := (stepRead_inRing (m := m) c hn hc).mpr h
  rw [stepRead_cursor]
  cases ha : stepAddr m t c s with
  | some a => exact hread a (by rw [ha]; rfl)
  | none =>
    cases c with
    | previous => exact hn
    | _ => exact (nextReadAddr_none ha).symm ▸ inRing_base

@[simp] theorem stepPut_cursor (b : Browser) (c : PageCmd) (i : ℕ) (x : List UInt8) (s : Log) :
    (stepPut b c i x s).crtReadAddrVal = s.crtReadAddrVal := by cases b <;> cases c <;> rfl

@[simp] theorem stepPut_next (b : Browser) (c : PageCmd) (i : ℕ) (x : List UInt8) (s : Log) :
    (stepPut b c i x s).nextWriteAddrVal = s.nextWriteAddrVal := by cases b <;> cases c <;> rfl

theorem InRing.lt {a : ℕ} (h : InRing t a) : a < 0x100000000 := by
  obtain ⟨k, hk, rfl⟩ := inRing_iff.mp h
  have := slotAddr_lt t hk.le
  omega

/-- A walk that may start where it does stays in the ring. -/
theorem loop_stays {b : Browser} {c : PageCmd} : ∀ (k i : ℕ) (s : Log),
    InRing t (s.nextWriteAddrVal t) → s.crtReadAddrVal t < 0x100000000 →
    MayStart t c (s.crtReadAddrVal t) →
    (∀ a ∈ loopReads (stepAddr m t c) (stepRead m t c) (stepPut b c) k i s, InRing t a) ∧
    (0 < k ∨ InRing t (s.crtReadAddrVal t) →
      InRing t ((pageLoop (stepRead m t c) (stepPut b c) k i s).1.crtReadAddrVal t))
  | 0, _, _, _, _, _ => ⟨by simp [loopReads], fun h => h.resolve_left (lt_irrefl 0)⟩
  | k + 1, i, s, hn, hc, h => by
      have hread := (stepRead_inRing (m := m) c hn hc).mpr h
      have hstay := stepRead_stays (m := m) c hn hc h
      simp only [loopReads, pageLoop]
      by_cases h0 : (stepRead m t c s).2.headD 0 = 0
      · rw [if_pos h0, if_pos h0]
        exact ⟨by simpa using hread, fun _ => hstay⟩
      · rw [if_neg h0, if_neg h0]
        obtain ⟨hr, hp⟩ := loop_stays k (i + 1) (stepPut b c i (stepRead m t c s).2
          (stepRead m t c s).1) (by rw [stepPut_next, stepRead_next]; exact hn)
          (by rw [stepPut_cursor]; exact hstay.lt) (by rw [stepPut_cursor]; exact Or.inl hstay)
        refine ⟨fun a ha => ?_, fun _ => hp (Or.inr (by rw [stepPut_cursor]; exact hstay))⟩
        rcases List.mem_append.mp ha with ha | ha
        · exact hread a (by simpa using ha)
        · exact hr a ha

theorem enter_cursor (b : Browser) (c : PageCmd) (s : Log) :
    (enter t b c s).crtReadAddrVal t = walkStart t b c s := setReadAddr_read ..

theorem enter_nextWrite (b : Browser) (c : PageCmd) (s : Log) :
    (enter t b c s).nextWriteAddrVal = s.nextWriteAddrVal := by cases b <;> cases c <;> rfl

theorem walkStart_lt {b : Browser} {c : PageCmd} (hn : InRing t (s.nextWriteAddrVal t))
    (hc : s.crtReadAddrVal t < 0x100000000) : walkStart t b c s < 0x100000000 := by
  cases c with
  | first => exact hn.lt
  | _ =>
    simp only [walkStart]
    split_ifs
    · exact u32_lt _
    · exact hc

theorem setLastNum_cursor (b : Browser) (n : ℕ) (s : Log) :
    (setLastNum b n s).crtReadAddrVal = s.crtReadAddrVal := by cases b <;> rfl

theorem setLastNum_next (b : Browser) (n : ℕ) (s : Log) :
    (setLastNum b n s).nextWriteAddrVal = s.nextWriteAddrVal := by cases b <;> rfl

/-- A command stays in its ring exactly when its walk may start where it does. -/
theorem stays_iff {b : Browser} {c : PageCmd} (hn : InRing t (s.nextWriteAddrVal t))
    (hc : s.crtReadAddrVal t < 0x100000000) :
    Stays m t b c s ↔ MayStart t c (walkStart t b c s) := by
  have hn' : InRing t ((enter t b c s).nextWriteAddrVal t) := by rw [enter_nextWrite]; exact hn
  have hc' : (enter t b c s).crtReadAddrVal t < 0x100000000 := by
    rw [enter_cursor]; exact walkStart_lt hn hc
  constructor
  · rintro ⟨-, hr⟩
    rw [← enter_cursor, ← stepRead_inRing (m := m) c hn' hc']
    intro a ha
    refine hr a ?_
    obtain ⟨k, hk⟩ : ∃ k, pageSize b = k + 1 := by cases b <;> exact ⟨_, rfl⟩
    rw [reads, hk, loopReads]
    exact List.mem_append_left _ (by simpa using ha)
  · intro h
    rw [← enter_cursor] at h
    obtain ⟨hr, hp⟩ := loop_stays (m := m) (b := b) (pageSize b) 0 _ hn' hc' h
    refine ⟨?_, hr⟩
    rw [page_eq_walk, setLastNum_cursor]
    exact hp (Or.inl (by cases b <;> decide))

/-! #### Runs of commands -/

/-- Commands of both readers on the log of one type. -/
def pageStep (m : Eeprom) (t : LogType) (s : Log) (bc : Browser × PageCmd) : Log :=
  page m t bc.1 bc.2 s

/-- The cursor of `t` is a 32-bit value and the write pointer a slot. -/
def Sane (t : LogType) (s : Log) : Prop :=
  InRing t (s.nextWriteAddrVal t) ∧ s.crtReadAddrVal t < 0x100000000

theorem walk_next (b : Browser) (c : PageCmd) : ∀ (k i : ℕ) (s : Log),
    (pageLoop (stepRead m t c) (stepPut b c) k i s).1.nextWriteAddrVal = s.nextWriteAddrVal
  | 0, _, _ => rfl
  | k + 1, i, s => by
      simp only [pageLoop]
      split_ifs
      · exact stepRead_next c
      · rw [walk_next b c k, stepPut_next, stepRead_next]

theorem page_next (b : Browser) (c : PageCmd) (s : Log) :
    (page m t b c s).nextWriteAddrVal = s.nextWriteAddrVal := by
  rw [page_eq_walk, setLastNum_next, walk, walk_next, enter_nextWrite]

theorem stepAddr_lt (c : PageCmd) {a : ℕ} (h : a ∈ stepAddr m t c s) : a < 0x100000000 := by
  cases c with
  | previous =>
    change a ∈ previousReadAddr t s at h
    rw [previousReadAddr] at h
    split_ifs at h <;> simp only [Option.mem_def, Option.some.injEq, reduceCtorEq] at h
    · exact h ▸ inRing_base.lt
    · exact h ▸ u32_lt _
  | _ =>
    change a ∈ nextReadAddr m t s at h
    rw [nextReadAddr] at h
    split_ifs at h <;> simp only [Option.mem_def, Option.some.injEq, reduceCtorEq] at h
    · exact h ▸ inRing_max.lt
    · exact h ▸ u32_lt _

theorem Sane.stepRead (h : Sane t s) (c : PageCmd) : Sane t (stepRead m t c s).1 := by
  refine ⟨by rw [stepRead_next]; exact h.1, ?_⟩
  rw [stepRead_cursor]
  cases ha : stepAddr m t c s with
  | some a => exact stepAddr_lt c ha
  | none =>
    simp only [Option.getD_none]
    split_ifs
    · exact h.1.lt
    · exact h.2

theorem Sane.loop {b : Browser} {c : PageCmd} : ∀ (k i : ℕ) {s : Log}, Sane t s →
    Sane t (pageLoop (Log.stepRead m t c) (stepPut b c) k i s).1
  | 0, _, _, h => h
  | k + 1, i, s, h => by
      simp only [pageLoop]
      split_ifs
      · exact h.stepRead c
      · refine Sane.loop k (i + 1) ⟨?_, ?_⟩
        · rw [stepPut_next]; exact (h.stepRead c).1
        · rw [stepPut_cursor]; exact (h.stepRead c).2

theorem Sane.page (h : Sane t s) (b : Browser) (c : PageCmd) : Sane t (page m t b c s) := by
  have henter : Sane t (enter t b c s) := by
    refine ⟨by rw [enter_nextWrite]; exact h.1, ?_⟩
    rw [enter_cursor]; exact walkStart_lt h.1 h.2
  have hwalk : Sane t (walk m t b c s).1 := Sane.loop _ _ henter
  rw [page_eq_walk]
  exact ⟨by rw [setLastNum_next]; exact hwalk.1, by rw [setLastNum_cursor]; exact hwalk.2⟩

/-- In a run of commands every command stays in the ring exactly when every walk may start where it
    does, that is, when no change of direction jumps over an end of the ring. -/
theorem run_stays_iff (cmds : List (Browser × PageCmd)) (h : Sane t s) :
    (∀ p ∈ Run.steps (pageStep m t) s cmds, Stays m t p.2.1 p.2.2 p.1) ↔
    ∀ p ∈ Run.steps (pageStep m t) s cmds, MayStart t p.2.2 (walkStart t p.2.1 p.2.2 p.1) := by
  have hsane : ∀ p ∈ Run.steps (pageStep m t) s cmds, Sane t p.1 :=
    Run.steps_inv (Sane t) (fun s bc hs => hs.page ..) cmds s h
  refine forall₂_congr fun p hp => ?_
  obtain ⟨hn, hc⟩ := hsane p hp
  exact stays_iff hn hc

end Ring

instance (m : Eeprom) (t : LogType) (b : Browser) (c : PageCmd) (s : Log) :
    Decidable (Stays m t b c s) := by unfold Stays; infer_instance

instance (t : LogType) (s : Log) : Decidable (Sane t s) := by unfold Sane; infer_instance

instance (t : LogType) (c : PageCmd) (a : ℕ) : Decidable (MayStart t c a) := by
  unfold MayStart; infer_instance

/-- Paging up and down once in a ring that has just begun to wrap. -/
theorem run_stays_at_slot_25 : Sane .AOPN (fullLog .AOPN 25) ∧
    ∀ p ∈ Run.steps (pageStep (fullMem .AOPN 25) .AOPN) (fullLog .AOPN 25)
      [(.web, .first), (.web, .next), (.web, .previous)],
      Stays (fullMem .AOPN 25) .AOPN p.2.1 p.2.2 p.1 :=
  ⟨by decide +kernel, (run_stays_iff _ (by decide +kernel)).mpr (by decide +kernel)⟩

/-- With slot 15 next, page 2 goes over the base of the ring and the way back leaves it at the top. -/
theorem not_every_run_stays : ¬ ∀ (m : Eeprom) (t : LogType) (s : Log)
    (cmds : List (Browser × PageCmd)), Sane t s →
    ∀ p ∈ Run.steps (pageStep m t) s cmds, Stays m t p.2.1 p.2.2 p.1 := by
  intro h
  have := h (fullMem .AOPN 15) .AOPN (fullLog .AOPN 15)
    [(.web, .first), (.web, .next), (.web, .previous)] (by decide +kernel)
  revert this
  decide +kernel

end Log

end VectorFence
