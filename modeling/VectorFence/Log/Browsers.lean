import VectorFence.Log.Cursor

/-! The web page and the LCD page side by side. Each reader has its own page, flag, direction and
    count, but both walk with the one cursor `crtReadAddrVal[t]` of the log type, and
    `updateLogPageFlag` marks both flags whoever reads.

        web ──▶ its page, direction, count ──┐                          ┌──▶ webLogPageFlag
                                             ├── crtReadAddrVal[t] ─────┤
        lcd ──▶ its page, direction, count ──┘    at the end of a log   └──▶ LCDLogPageFlag

    `AgreeOn b t` relates two states that look the same to reader `b` on type `t`; every command of
    `b` keeps it. A command of the other reader can break it in two ways: it moves the cursor of
    `b`'s log, or it comes to the end of its own log, on whatever type, and marks `b`'s flag. -/

namespace VectorFence

namespace Log

open Eeprom

/-! ### What one reader sees -/

def flagOf : Browser → Log → UInt8
  | .web, s => s.webLogPageFlag
  | .lcd, s => s.LCDLogPageFlag

/-- The page a reader shows. -/
def pageOf : Browser → Log → List (List UInt8)
  | .web, s => [s.crtWebPageLogData]
  | .lcd, s => s.crtLCDPageLogData

/-- The page number, which only the web page has. -/
def pageNumOf : Browser → Log → ℕ
  | .web, s => s.crtWebLogPageNum
  | .lcd, _ => 0

/-- The variables of one reader, its flag apart. -/
structure SameOwn (b : Browser) (s s' : Log) : Prop where
  dir : lastDir b s = lastDir b s'
  num : lastNum b s = lastNum b s'
  pageNum : pageNumOf b s = pageNumOf b s'
  shows : pageOf b s = pageOf b s'

/-- Two states that reader `b` cannot tell apart on the log of `t`. -/
structure AgreeOn (b : Browser) (t : LogType) (s s' : Log) : Prop extends SameOwn b s s' where
  next : s.nextWriteAddrVal t = s'.nextWriteAddrVal t
  cursor : s.crtReadAddrVal t = s'.crtReadAddrVal t
  flag : flagOf b s = flagOf b s'

section Agree

variable {m : Eeprom} {b : Browser} {t : LogType} {s s' : Log}

theorem AgreeOn.setReadAddr (h : AgreeOn b t s s') (a : ℕ) :
    AgreeOn b t (s.setReadAddr t a) (s'.setReadAddr t a) := by
  obtain ⟨⟨h1, h2, h3, h4⟩, h5, h6, h7⟩ := h
  cases b <;> exact ⟨⟨h1, h2, h3, h4⟩, h5, by rw [setReadAddr_read, setReadAddr_read], h7⟩

theorem flagOf_update (b : Browser) (f : UInt8) (s : Log) :
    flagOf b (updateLogPageFlag m t f s) =
      if isLogPageOverOne m (pageSize b) t s then f else flagOf b s ||| f := by
  cases b <;> rfl

theorem AgreeOn.update (h : AgreeOn b t s s') (f : UInt8) :
    AgreeOn b t (updateLogPageFlag m t f s) (updateLogPageFlag m t f s') := by
  have hover : isLogPageOverOne m (pageSize b) t s = isLogPageOverOne m (pageSize b) t s' := by
    rw [isLogPageOverOne, isLogPageOverOne, h.next]
  have hflag : flagOf b (updateLogPageFlag m t f s) = flagOf b (updateLogPageFlag m t f s') := by
    rw [flagOf_update, flagOf_update, hover, h.flag]
  obtain ⟨⟨h1, h2, h3, h4⟩, h5, h6, -⟩ := h
  cases b <;> exact ⟨⟨h1, h2, h3, h4⟩, h5, h6, hflag⟩

theorem AgreeOn.readNextLog (h : AgreeOn b t s s') :
    AgreeOn b t (readNextLog m t s).1 (readNextLog m t s').1 ∧
    (Log.readNextLog m t s).2 = (Log.readNextLog m t s').2 := by
  have haddr : nextReadAddr m t s = nextReadAddr m t s' := by
    rw [nextReadAddr, nextReadAddr, h.cursor]
  unfold Log.readNextLog
  rw [haddr]
  cases nextReadAddr m t s' with
  | none => exact ⟨h.update logEnd, rfl⟩
  | some a =>
    have hset := h.setReadAddr a
    dsimp only
    rw [hset.next]
    refine ⟨?_, rfl⟩
    split_ifs
    · exact hset.update logEnd
    · exact hset
    · exact hset.update logEnd
    · exact hset

theorem AgreeOn.readPreviousLog (h : AgreeOn b t s s') :
    AgreeOn b t (readPreviousLog m t s).1 (readPreviousLog m t s').1 ∧
    (Log.readPreviousLog m t s).2 = (Log.readPreviousLog m t s').2 := by
  have hnew (a : ℕ) : newestAddr t (s.setReadAddr t a) = newestAddr t (s'.setReadAddr t a) := by
    rw [newestAddr, newestAddr, (h.setReadAddr a).next]
  have haddr : previousReadAddr t s = previousReadAddr t s' := by
    rw [previousReadAddr, previousReadAddr, h.cursor, newestAddr, newestAddr, h.next]
  unfold Log.readPreviousLog
  rw [haddr]
  cases previousReadAddr t s' with
  | none =>
    dsimp only
    rw [h.next]
    exact ⟨(h.setReadAddr _).update logHead, rfl⟩
  | some a =>
    have hset := h.setReadAddr a
    dsimp only
    rw [hnew a]
    refine ⟨?_, rfl⟩
    split_ifs
    · exact hset.update logHead
    · exact hset

theorem AgreeOn.stepRead (h : AgreeOn b t s s') (c : PageCmd) :
    AgreeOn b t (stepRead m t c s).1 (stepRead m t c s').1 ∧
    (Log.stepRead m t c s).2 = (Log.stepRead m t c s').2 := by
  cases c with
  | previous => exact h.readPreviousLog
  | _ => exact h.readNextLog

theorem AgreeOn.stepPut (h : AgreeOn b t s s') (c : PageCmd) (i : ℕ) (x : List UInt8) :
    AgreeOn b t (stepPut b c i x s) (stepPut b c i x s') := by
  obtain ⟨⟨h1, h2, h3, h4⟩, h5, h6, h7⟩ := h
  cases b with
  | web =>
    have hd : s.crtWebPageLogData = s'.crtWebPageLogData := by simpa [pageOf] using h4
    cases c <;> exact ⟨⟨h1, h2, h3, by simp only [pageOf, Log.stepPut, appendWebRow, prependWebRow,
      hd]⟩, h5, h6, h7⟩
  | lcd =>
    have hd : s.crtLCDPageLogData = s'.crtLCDPageLogData := h4
    cases c <;> exact ⟨⟨h1, h2, h3, by simp only [pageOf, Log.stepPut, putLcdRow, putLcdRowUp,
      hd]⟩, h5, h6, h7⟩

theorem AgreeOn.pageLoop {c : PageCmd} : ∀ (k i : ℕ) {s s' : Log}, AgreeOn b t s s' →
    AgreeOn b t (pageLoop (Log.stepRead m t c) (Log.stepPut b c) k i s).1
      (Log.pageLoop (Log.stepRead m t c) (Log.stepPut b c) k i s').1 ∧
    (Log.pageLoop (Log.stepRead m t c) (Log.stepPut b c) k i s).2 =
      (Log.pageLoop (Log.stepRead m t c) (Log.stepPut b c) k i s').2
  | 0, _, _, _, h => ⟨h, rfl⟩
  | k + 1, i, s, s', h => by
      obtain ⟨h1, h2⟩ := h.stepRead (m := m) c
      simp only [Log.pageLoop, h2]
      split_ifs
      · exact ⟨h1, rfl⟩
      · exact AgreeOn.pageLoop k (i + 1) (h1.stepPut c i _)

theorem SameOwn.walkStart_next (h : SameOwn b s s') (hc : s.crtReadAddrVal t = s'.crtReadAddrVal t) :
    walkStart t b .next s = walkStart t b .next s' ∧
    walkStart t b .previous s = walkStart t b .previous s' := by
  simp only [walkStart, h.dir, h.num, hc, and_self]

/-- A command of `b` that does not depend on the cursor, or finds the same one, starts alike. -/
theorem SameOwn.enter (h : SameOwn b s s') (hn : s.nextWriteAddrVal t = s'.nextWriteAddrVal t)
    {c : PageCmd} (hc : c = .first ∨ s.crtReadAddrVal t = s'.crtReadAddrVal t) :
    AgreeOn b t (enter t b c s) (enter t b c s') := by
  have hstart : walkStart t b c s = walkStart t b c s' := by
    cases c with
    | first => exact hn
    | next => exact (h.walkStart_next (hc.resolve_left (by decide))).1
    | previous => exact (h.walkStart_next (hc.resolve_left (by decide))).2
  have hcur : (Log.enter t b c s).crtReadAddrVal t = (Log.enter t b c s').crtReadAddrVal t := by
    rw [enter_cursor, enter_cursor, hstart]
  have hnext : (Log.enter t b c s).nextWriteAddrVal t = (Log.enter t b c s').nextWriteAddrVal t := by
    rw [enter_nextWrite, enter_nextWrite, hn]
  obtain ⟨h1, h2, h3, h4⟩ := h
  cases b with
  | web =>
    have hp : s.crtWebLogPageNum = s'.crtWebLogPageNum := h3
    cases c with
    | first => exact ⟨⟨rfl, rfl, rfl, rfl⟩, hnext, hcur, rfl⟩
    | next => exact ⟨⟨rfl, h2, congrArg (fun n => (n + 1) % 256) hp, rfl⟩, hnext, hcur, rfl⟩
    | previous => exact ⟨⟨rfl, h2, congrArg (fun n => (n + 255) % 256) hp, rfl⟩, hnext, hcur, rfl⟩
  | lcd => cases c <;> exact ⟨⟨rfl, h2, rfl, rfl⟩, hnext, hcur, rfl⟩

theorem AgreeOn.setLastNum (h : AgreeOn b t s s') (n : ℕ) :
    AgreeOn b t (setLastNum b n s) (setLastNum b n s') := by
  obtain ⟨⟨h1, h2, h3, h4⟩, h5, h6, h7⟩ := h
  cases b <;> exact ⟨⟨h1, rfl, h3, h4⟩, h5, h6, h7⟩

/-- Such a command shows the same page and flag, and leaves states that agree. -/
theorem SameOwn.agree (h : SameOwn b s s') (hn : s.nextWriteAddrVal t = s'.nextWriteAddrVal t)
    {c : PageCmd} (hc : c = .first ∨ s.crtReadAddrVal t = s'.crtReadAddrVal t) :
    AgreeOn b t (page m t b c s) (page m t b c s') := by
  obtain ⟨h1, h2⟩ := (h.enter hn hc).pageLoop (m := m) (c := c) (pageSize b) 0
  have hlen : pageLen m t b c s = pageLen m t b c s' := by
    rw [pageLen, pageLen, walk, walk, h2, h.num]
  rw [page_eq_walk, page_eq_walk, hlen]
  exact h1.setLastNum _

/-! ### What the other reader leaves alone -/

theorem SameOwn.refl (b : Browser) (s : Log) : SameOwn b s s := ⟨rfl, rfl, rfl, rfl⟩

theorem SameOwn.trans {r : Log} (h : SameOwn b s s') (h' : SameOwn b s' r) : SameOwn b s r :=
  ⟨h.dir.trans h'.dir, h.num.trans h'.num, h.pageNum.trans h'.pageNum, h.shows.trans h'.shows⟩

theorem stepRead_frame (c : PageCmd) (s : Log) : ∃ a f g, (stepRead m t c s).1 =
    { s with crtReadAddrVal := a, webLogPageFlag := f, LCDLogPageFlag := g } := by
  cases c with
  | previous => exact ⟨_, _, _, readPreviousLog_frame s⟩
  | _ => exact ⟨_, _, _, readNextLog_frame s⟩

theorem sameOwn_stepRead (b : Browser) (c : PageCmd) (s : Log) :
    SameOwn b (stepRead m t c s).1 s := by
  obtain ⟨a, f, g, h⟩ := stepRead_frame (m := m) (t := t) c s
  rw [h]
  cases b <;> exact ⟨rfl, rfl, rfl, rfl⟩

theorem sameOwn_enter {o : Browser} (ho : o ≠ b) (c : PageCmd) (s : Log) :
    SameOwn b (enter t o c s) s := by
  cases b <;> cases o <;> first | exact absurd rfl ho | cases c <;> exact ⟨rfl, rfl, rfl, rfl⟩

theorem sameOwn_stepPut {o : Browser} (ho : o ≠ b) (c : PageCmd) (i : ℕ) (x : List UInt8) (s : Log) :
    SameOwn b (stepPut o c i x s) s := by
  cases b <;> cases o <;> first | exact absurd rfl ho | cases c <;> exact ⟨rfl, rfl, rfl, rfl⟩

theorem sameOwn_setLastNum {o : Browser} (ho : o ≠ b) (n : ℕ) (s : Log) :
    SameOwn b (setLastNum o n s) s := by
  cases b <;> cases o <;> first | exact absurd rfl ho | exact ⟨rfl, rfl, rfl, rfl⟩

theorem sameOwn_pageLoop {o : Browser} (ho : o ≠ b) (c : PageCmd) : ∀ (k i : ℕ) (s : Log),
    SameOwn b (pageLoop (stepRead m t c) (stepPut o c) k i s).1 s
  | 0, _, s => SameOwn.refl b s
  | k + 1, i, s => by
      simp only [pageLoop]
      split_ifs
      · exact sameOwn_stepRead b c s
      · exact (sameOwn_pageLoop ho c k (i + 1) _).trans
          ((sameOwn_stepPut ho c i _ _).trans (sameOwn_stepRead b c s))

/-- A command of the other reader touches nothing of `b`'s own, whatever its log type. -/
theorem sameOwn_page {o : Browser} (ho : o ≠ b) (c : PageCmd) (s : Log) :
    SameOwn b (page m t o c s) s := by
  rw [page_eq_walk]
  exact (sameOwn_setLastNum ho _ _).trans
    ((sameOwn_pageLoop ho c _ _ _).trans (sameOwn_enter ho c s))

/-- The cursors of other log types are left alone. -/
theorem stepRead_cursor_ne {u : LogType} (hu : t ≠ u) (c : PageCmd) (s : Log) :
    (stepRead m u c s).1.crtReadAddrVal t = s.crtReadAddrVal t := by
  have hset (a : ℕ) : (s.setReadAddr u a).crtReadAddrVal t = s.crtReadAddrVal t :=
    Function.update_of_ne hu ..
  cases c with
  | previous =>
    change (readPreviousLog m u s).1.crtReadAddrVal t = _
    unfold readPreviousLog
    cases previousReadAddr u s with
    | none => exact hset _
    | some a => dsimp only; split_ifs <;> exact hset a
  | _ =>
    change (readNextLog m u s).1.crtReadAddrVal t = _
    unfold readNextLog
    cases nextReadAddr m u s with
    | none => rfl
    | some a => dsimp only; split_ifs <;> exact hset a

theorem pageLoop_cursor_ne {u : LogType} (hu : t ≠ u) (o : Browser) (c : PageCmd) :
    ∀ (k i : ℕ) (s : Log),
      (pageLoop (stepRead m u c) (stepPut o c) k i s).1.crtReadAddrVal t = s.crtReadAddrVal t
  | 0, _, _ => rfl
  | k + 1, i, s => by
      simp only [pageLoop]
      split_ifs
      · exact stepRead_cursor_ne hu c s
      · rw [pageLoop_cursor_ne hu o c k, stepPut_cursor, stepRead_cursor_ne hu]

theorem page_cursor_ne {u : LogType} (hu : t ≠ u) (o : Browser) (c : PageCmd) (s : Log) :
    (page m u o c s).crtReadAddrVal t = s.crtReadAddrVal t := by
  rw [page_eq_walk, setLastNum_cursor, walk, pageLoop_cursor_ne hu, enter]
  have hset : ((prepare o c s).setReadAddr u (walkStart u o c s)).crtReadAddrVal t =
      (prepare o c s).crtReadAddrVal t := Function.update_of_ne hu ..
  rw [hset]
  cases o <;> cases c <;> rfl

/-! ### What the other reader does to a flag -/

/-- The mark of the end of a log in a direction. -/
def endFlag : PageCmd → UInt8
  | .previous => logHead
  | _ => logEnd

/-- The entry at the end of a log in a direction: the newest one upwards, else the oldest. -/
def endAddr (m : Eeprom) (t : LogType) (c : PageCmd) (s : Log) : ℕ :=
  if c = .previous then newestAddr t s
  else if isLogFull m t then s.nextWriteAddrVal t
  else eachTypeLogBasedAddr t

/-- At most `k` reads from the cursor come to the end of the log; an empty entry stops them. -/
def comesToEnd (m : Eeprom) (t : LogType) (c : PageCmd) : ℕ → Log → Bool
  | 0, _ => false
  | k + 1, s =>
    match stepAddr m t c s with
    | none => true
    | some a =>
      a = endAddr m t c s || (entryAt m a).headD 0 ≠ 0 && comesToEnd m t c k (s.setReadAddr t a)

/-- The flag of `b` with a mark that the log of `t` raises. -/
def marked (m : Eeprom) (t : LogType) (b : Browser) (f : UInt8) (s : Log) : UInt8 :=
  if isLogPageOverOne m (pageSize b) t s then f else flagOf b s ||| f

/-- A command of the other reader `o` on the log of `u` leaves the flag of `b` as it is: it does not
    come to the end of its log, or the flag has that mark. -/
def KeepsFlag (m : Eeprom) (u : LogType) (b o : Browser) (c : PageCmd) (s : Log) : Prop :=
  comesToEnd m u c (pageSize o) (s.setReadAddr u (walkStart u o c s)) = true →
    marked m u b (endFlag c) s = flagOf b s

instance (m : Eeprom) (u : LogType) (b o : Browser) (c : PageCmd) (s : Log) :
    Decidable (KeepsFlag m u b o c s) := by unfold KeepsFlag; infer_instance

theorem endAddr_congr {c : PageCmd} (h : s.nextWriteAddrVal t = s'.nextWriteAddrVal t) :
    endAddr m t c s = endAddr m t c s' := by
  simp only [endAddr, newestAddr, h]

theorem comesToEnd_congr {c : PageCmd} : ∀ (k : ℕ) {s s' : Log},
    s.nextWriteAddrVal t = s'.nextWriteAddrVal t → s.crtReadAddrVal t = s'.crtReadAddrVal t →
    comesToEnd m t c k s = comesToEnd m t c k s'
  | 0, _, _, _, _ => rfl
  | k + 1, s, s', hn, hc => by
      have haddr : stepAddr m t c s = stepAddr m t c s' := by
        cases c with
        | previous =>
          change previousReadAddr t s = previousReadAddr t s'
          rw [previousReadAddr, previousReadAddr, newestAddr, newestAddr, hn, hc]
        | _ =>
          change nextReadAddr m t s = nextReadAddr m t s'
          rw [nextReadAddr, nextReadAddr, hc]
      simp only [comesToEnd, haddr, endAddr_congr (m := m) (c := c) hn]
      cases stepAddr m t c s' with
      | none => rfl
      | some a =>
        have hread : (s.setReadAddr t a).crtReadAddrVal t = (s'.setReadAddr t a).crtReadAddrVal t := by
          rw [setReadAddr_read, setReadAddr_read]
        have hrest : comesToEnd m t c k (s.setReadAddr t a) = comesToEnd m t c k (s'.setReadAddr t a) :=
          comesToEnd_congr k hn hread
        simp only [hrest]

theorem marked_congr {f : UInt8} (hn : s.nextWriteAddrVal t = s'.nextWriteAddrVal t)
    (hf : flagOf b s = flagOf b s') : marked m t b f s = marked m t b f s' := by
  rw [marked, marked, isLogPageOverOne, isLogPageOverOne, hn, hf]

/-- A mark is raised once and for all. -/
theorem marked_marked {f : UInt8} (hn : s'.nextWriteAddrVal t = s.nextWriteAddrVal t)
    (hf : flagOf b s' = marked m t b f s) : marked m t b f s' = marked m t b f s := by
  have hover : isLogPageOverOne m (pageSize b) t s' = isLogPageOverOne m (pageSize b) t s := by
    rw [isLogPageOverOne, isLogPageOverOne, hn]
  rw [marked, hf, hover, marked]
  split_ifs
  · rfl
  · rw [UInt8.or_assoc, UInt8.or_self]

theorem flagOf_setReadAddr (b : Browser) (s : Log) (a : ℕ) :
    flagOf b (s.setReadAddr t a) = flagOf b s := by cases b <;> rfl

/-- One read: the entry, and what it does to a flag. -/
theorem flagOf_stepRead (b : Browser) (c : PageCmd) (s : Log) :
    flagOf b (stepRead m t c s).1 =
      (if (stepAddr m t c s).all (fun a => a = endAddr m t c s) then marked m t b (endFlag c) s
        else flagOf b s) ∧
    (stepRead m t c s).2 = ((stepAddr m t c s).map (entryAt m)).getD blankEntry := by
  have hset (f : UInt8) (a : ℕ) : flagOf b (updateLogPageFlag m t f (s.setReadAddr t a)) =
      marked m t b f s := by
    rw [flagOf_update]
    exact marked_congr rfl (flagOf_setReadAddr b s a)
  cases c with
  | previous =>
    change flagOf b (readPreviousLog m t s).1 = (if (previousReadAddr t s).all _ then _ else _) ∧
      (readPreviousLog m t s).2 = ((previousReadAddr t s).map _).getD _
    rw [readPreviousLog]
    cases previousReadAddr t s with
    | none => exact ⟨hset logHead _, rfl⟩
    | some a =>
      refine ⟨?_, rfl⟩
      simp only [Option.all_some, endAddr, if_true, decide_eq_true_eq]
      rw [show newestAddr t (s.setReadAddr t a) = newestAddr t s from rfl]
      split_ifs
      · exact hset logHead a
      · exact flagOf_setReadAddr b s a
  | _ =>
    change flagOf b (readNextLog m t s).1 = (if (nextReadAddr m t s).all _ then _ else _) ∧
      (readNextLog m t s).2 = ((nextReadAddr m t s).map _).getD _
    rw [readNextLog]
    cases nextReadAddr m t s with
    | none => exact ⟨flagOf_update b logEnd s, rfl⟩
    | some a =>
      refine ⟨?_, rfl⟩
      simp only [Option.all_some, endAddr, reduceCtorEq, if_false, decide_eq_true_eq, setReadAddr_next]
      split_ifs <;> first | exact hset logEnd a | exact flagOf_setReadAddr b s a

theorem flagOf_stepPut {o : Browser} (c : PageCmd) (i : ℕ) (x : List UInt8) (s : Log) :
    flagOf b (stepPut o c i x s) = flagOf b s := by cases b <;> cases o <;> cases c <;> rfl

/-- The loop of a command marks a flag when it comes to the end of its log. -/
theorem flagOf_pageLoop (o : Browser) (c : PageCmd) : ∀ (k i : ℕ) (s : Log),
    flagOf b (pageLoop (stepRead m t c) (stepPut o c) k i s).1 =
      if comesToEnd m t c k s then marked m t b (endFlag c) s else flagOf b s
  | 0, _, _ => by rw [pageLoop, comesToEnd, if_neg Bool.false_ne_true]
  | k + 1, i, s => by
      obtain ⟨hflag, hentry⟩ := flagOf_stepRead (m := m) (t := t) b c s
      have hcur := stepRead_cursor (m := m) (t := t) (s := s) c
      -- the state in which the loop goes on
      set s' := stepPut o c i (stepRead m t c s).2 (stepRead m t c s).1 with hs'
      have hn : s'.nextWriteAddrVal t = s.nextWriteAddrVal t := by
        rw [hs', stepPut_next, stepRead_next]
      have hf : flagOf b s' = flagOf b (stepRead m t c s).1 := by rw [hs', flagOf_stepPut]
      have hloop : flagOf b (pageLoop (stepRead m t c) (stepPut o c) (k + 1) i s).1 =
          if (stepRead m t c s).2.headD 0 = 0 then flagOf b (stepRead m t c s).1
          else if comesToEnd m t c k s' then marked m t b (endFlag c) s' else flagOf b s' := by
        rw [pageLoop, ← flagOf_pageLoop o c k (i + 1) s']
        split_ifs <;> rfl
      rw [hloop, hf]
      cases ha : stepAddr m t c s with
      | none =>
        rw [ha] at hflag hentry
        have hend : comesToEnd m t c (k + 1) s = true := by simp only [comesToEnd, ha]
        have hblank : (stepRead m t c s).2.headD 0 = 0 := by
          rw [hentry]
          simp [blankEntry, eachLogSize]
        rw [if_pos hblank, hflag, if_pos hend, Option.all_none, if_pos rfl]
      | some a =>
        rw [ha] at hflag hentry hcur
        simp only [Option.all_some, Option.map_some, Option.getD_some, decide_eq_true_eq]
          at hflag hentry hcur
        rw [hentry]
        by_cases hend : a = endAddr m t c s
        · -- marked by this read, and by no later one again
          have hmark : comesToEnd m t c (k + 1) s = true := by simp [comesToEnd, ha, hend]
          rw [if_pos hend] at hflag
          rw [hflag, if_pos hmark, marked_marked hn (hf.trans hflag), ite_self, ite_self]
        · rw [if_neg hend] at hflag
          have hrest : comesToEnd m t c k s' = comesToEnd m t c k (s.setReadAddr t a) := by
            refine comesToEnd_congr k hn ?_
            rw [hs', stepPut_cursor, hcur, setReadAddr_read]
          rw [hflag, marked_congr hn (hf.trans hflag), hrest]
          by_cases h0 : (entryAt m a).headD 0 = 0
          · have hstop : comesToEnd m t c (k + 1) s = false := by
              simp only [comesToEnd, ha, hend, h0, ne_eq, not_true_eq_false, decide_false,
                Bool.false_and, Bool.or_false]
            rw [if_pos h0, hstop, if_neg Bool.false_ne_true]
          · have hon : comesToEnd m t c (k + 1) s = comesToEnd m t c k (s.setReadAddr t a) := by
              simp only [comesToEnd, ha, hend, h0, ne_eq, not_false_eq_true, decide_false, decide_true,
                Bool.true_and, Bool.false_or]
            rw [if_neg h0, hon]

theorem flagOf_enter {o : Browser} (ho : o ≠ b) (c : PageCmd) (s : Log) :
    flagOf b (enter t o c s) = flagOf b s := by
  cases b <;> cases o <;> first | exact absurd rfl ho | cases c <;> rfl

theorem flagOf_setLastNum (o : Browser) (n : ℕ) (s : Log) :
    flagOf b (setLastNum o n s) = flagOf b s := by cases b <;> cases o <;> rfl

/-- The flag of `b` after a command of the other reader. -/
theorem flagOf_page_iff {o : Browser} (ho : o ≠ b) (c : PageCmd) (s : Log) :
    flagOf b (page m t o c s) = flagOf b s ↔ KeepsFlag m t b o c s := by
  have hn : (enter t o c s).nextWriteAddrVal t = s.nextWriteAddrVal t :=
    congrFun (enter_nextWrite o c s) t
  have hend : comesToEnd m t c (pageSize o) (enter t o c s) =
      comesToEnd m t c (pageSize o) (s.setReadAddr t (walkStart t o c s)) := by
    refine comesToEnd_congr _ hn ?_
    rw [enter_cursor, setReadAddr_read]
  rw [page_eq_walk, flagOf_setLastNum, walk, flagOf_pageLoop, hend,
    marked_congr hn (flagOf_enter ho c s), flagOf_enter ho, KeepsFlag]
  split_ifs with h
  · exact ⟨fun heq _ => heq, fun heq => heq h⟩
  · exact iff_of_true rfl fun h' => absurd h' h

end Agree

/-! ### Interleaved runs -/

/-- A command of a reader, each reader browsing the log of its own type. -/
def browse (m : Eeprom) (types : Browser → LogType) (s : Log) (bc : Browser × PageCmd) : Log :=
  page m (types bc.1) bc.1 bc.2 s

/-- The page and the flag of a reader. -/
def shown (b : Browser) (s : Log) : List (List UInt8) × UInt8 := (pageOf b s, flagOf b s)

/-- After every command of a run, the other reader's included, `b` has the page and the flag that
    its own commands so far give it alone. -/
def Independent (m : Eeprom) (types : Browser → LogType) (b : Browser) (s : Log)
    (cmds : List (Browser × PageCmd)) : Prop :=
  ∀ pre, pre <+: cmds → shown b (pre.foldl (browse m types) s) =
    shown b ((pre.filter (·.1 = b)).foldl (browse m types) s)

/-- The commands of `b` other than `first` find the cursor of its log at `left`, where its own last
    command left it, and the commands of the other reader keep its flag. -/
def Undisturbed (m : Eeprom) (types : Browser → LogType) (b : Browser) :
    ℕ → Log → List (Browser × PageCmd) → Prop
  | _, _, [] => True
  | left, s, (o, c) :: cmds =>
    if o = b then (c = .first ∨ s.crtReadAddrVal (types b) = left) ∧
      Undisturbed m types b ((browse m types s (o, c)).crtReadAddrVal (types b))
      (browse m types s (o, c)) cmds
    else KeepsFlag m (types o) b o c s ∧ Undisturbed m types b left (browse m types s (o, c)) cmds

section Run

variable {m : Eeprom} {types : Browser → LogType} {b : Browser}

/-- A run of both readers beside the run of `b` alone, whose cursor is at `left`. -/
structure Beside (m : Eeprom) (types : Browser → LogType) (b : Browser) (left : ℕ) (s s' : Log) :
    Prop extends SameOwn b s s' where
  flag : flagOf b s = flagOf b s'
  next : s.nextWriteAddrVal = s'.nextWriteAddrVal
  cursor : s'.crtReadAddrVal (types b) = left

theorem Beside.shown_eq {left : ℕ} {s s' : Log} (h : Beside m types b left s s') :
    shown b s = shown b s' := by rw [shown, shown, h.shows, h.flag]

/-- A command of `b` itself, taken in both runs. -/
theorem Beside.own {left : ℕ} {s s' : Log} (h : Beside m types b left s s') {c : PageCmd}
    (hc : c = .first ∨ s.crtReadAddrVal (types b) = left) :
    Beside m types b ((browse m types s (b, c)).crtReadAddrVal (types b))
      (browse m types s (b, c)) (browse m types s' (b, c)) := by
  have hagree : AgreeOn b (types b) (browse m types s (b, c)) (browse m types s' (b, c)) :=
    h.toSameOwn.agree (congrFun h.next _) (by rw [h.cursor]; exact hc)
  have hn : (browse m types s (b, c)).nextWriteAddrVal = s.nextWriteAddrVal := page_next ..
  have hn' : (browse m types s' (b, c)).nextWriteAddrVal = s'.nextWriteAddrVal := page_next ..
  exact ⟨hagree.toSameOwn, hagree.flag, by rw [hn, hn', h.next], hagree.cursor.symm⟩

/-- A command of the other reader, which is not taken in the run of `b` alone. -/
theorem Beside.other {left : ℕ} {s s' : Log} (h : Beside m types b left s s') {o : Browser}
    (ho : o ≠ b) {c : PageCmd} (hk : KeepsFlag m (types o) b o c s) :
    Beside m types b left (browse m types s (o, c)) s' :=
  ⟨(sameOwn_page ho c s).trans h.toSameOwn, ((flagOf_page_iff ho c s).mpr hk).trans h.flag,
    (page_next ..).trans h.next, h.cursor⟩

/-- The run of both readers is simulated, for `b`, by the run of its own commands alone. -/
theorem Beside.independent : ∀ (cmds : List (Browser × PageCmd)) {left : ℕ} {s s' : Log},
    Beside m types b left s s' → Undisturbed m types b left s cmds →
    ∀ pre, pre <+: cmds → shown b (pre.foldl (browse m types) s) =
      shown b ((pre.filter (·.1 = b)).foldl (browse m types) s')
  | cmds, left, s, s', h, _, [], _ => h.shown_eq
  | [], _, _, _, _, _, bc :: pre, hpre => absurd (List.prefix_nil.mp hpre) (List.cons_ne_nil _ _)
  | (o, c) :: cmds, left, s, s', h, hok, bc :: pre, hpre => by
      obtain ⟨rfl, hrest⟩ := List.cons_prefix_cons.mp hpre
      rw [Undisturbed] at hok
      by_cases ho : o = b
      · obtain rfl := ho.symm
        rw [if_pos rfl] at hok
        rw [List.filter_cons_of_pos (by simp), List.foldl_cons, List.foldl_cons]
        exact Beside.independent cmds (h.own hok.1) hok.2 pre hrest
      · rw [if_neg ho] at hok
        rw [List.filter_cons_of_neg (by simpa using ho), List.foldl_cons]
        exact Beside.independent cmds (h.other ho hok.1) hok.2 pre hrest

/-- Readers on different logs never move each other's cursor, so only a mark can disturb. -/
theorem Beside.undisturbed (ht : types .web ≠ types .lcd) :
    ∀ (cmds : List (Browser × PageCmd)) {left : ℕ}
    {s s' : Log}, Beside m types b left s s' → s.crtReadAddrVal (types b) = left →
    (∀ pre, pre <+: cmds → shown b (pre.foldl (browse m types) s) =
      shown b ((pre.filter (·.1 = b)).foldl (browse m types) s')) →
    Undisturbed m types b left s cmds
  | [], _, _, _, _, _, _ => trivial
  | (o, c) :: cmds, left, s, s', h, hcur, hshown => by
      rw [Undisturbed]
      by_cases ho : o = b
      · obtain rfl := ho.symm
        rw [if_pos rfl]
        refine ⟨Or.inr hcur, Beside.undisturbed ht cmds (h.own (Or.inr hcur)) rfl fun pre hpre => ?_⟩
        have hnow := hshown ((b, c) :: pre) (List.cons_prefix_cons.mpr ⟨rfl, hpre⟩)
        rwa [List.filter_cons_of_pos (by simp), List.foldl_cons, List.foldl_cons] at hnow
      · rw [if_neg ho]
        have hnow (pre) (hpre : pre <+: cmds) :
          shown b (pre.foldl (browse m types) (browse m types s (o, c))) =
            shown b ((pre.filter (·.1 = b)).foldl (browse m types) s') := by
          have hcons := hshown ((o, c) :: pre) (List.cons_prefix_cons.mpr ⟨rfl, hpre⟩)
          rwa [List.filter_cons_of_neg (by simpa using ho), List.foldl_cons] at hcons
        have hflag : flagOf b (browse m types s (o, c)) = flagOf b s' :=
          congrArg Prod.snd (hnow [] List.nil_prefix)
        have hkeep : KeepsFlag m (types o) b o c s :=
          (flagOf_page_iff ho c s).mp (hflag.trans h.flag.symm)
        have hne : types b ≠ types o := by
          cases b <;> cases o <;> first | exact absurd rfl ho | exact ht | exact ht.symm
        exact ⟨hkeep, Beside.undisturbed ht cmds (h.other ho hkeep)
          ((page_cursor_ne hne o c s).trans hcur) hnow⟩

/-- A reader is shown, after every command of either reader, what it would be shown alone, if no command
    of its own finds its cursor moved and no command of the other marks its flag. For readers on
    different logs, whose cursors are apart, this is needed too. -/
theorem shown_independent (s : Log) (cmds : List (Browser × PageCmd)) (b : Browser) :
    (Undisturbed m types b (s.crtReadAddrVal (types b)) s cmds → Independent m types b s cmds) ∧
      (types .web ≠ types .lcd → Independent m types b s cmds →
        Undisturbed m types b (s.crtReadAddrVal (types b)) s cmds) := by
  have hself : Beside m types b (s.crtReadAddrVal (types b)) s s := ⟨SameOwn.refl b s, rfl, rfl, rfl⟩
  exact ⟨hself.independent cmds, fun ht => hself.undisturbed ht cmds rfl⟩

end Run

instance (m : Eeprom) (types : Browser → LogType) (b : Browser) : ∀ (left : ℕ) (s : Log)
    (cmds : List (Browser × PageCmd)), Decidable (Undisturbed m types b left s cmds)
  | _, _, [] => .isTrue trivial
  | left, s, (o, c) :: cmds =>
    have := instDecidableUndisturbed m types b ((browse m types s (o, c)).crtReadAddrVal (types b))
      (browse m types s (o, c)) cmds
    have := instDecidableUndisturbed m types b left (browse m types s (o, c)) cmds
    inferInstanceAs (Decidable (if o = b then _ ∧ _ else _ ∧ _))

/-- A memory with eleven entries of `AOPN`. -/
def elevenMem : Eeprom :=
  at24cxxWriteLenByte (fun x =>
      if slotAddr .AOPN 0 ≤ x ∧ x < slotAddr .AOPN 11 then 49 else 0xFF)
    (logNextWAddr .AOPN) (slotAddr .AOPN 11) 2

def elevenLog : Log := powerOn.setNextWriteAddr .AOPN (slotAddr .AOPN 11)

/-- The web reader, the LCD reader on the first six entries of the same log, the web reader again. -/
theorem shown_independent_in_turn : Independent elevenMem (fun _ => .AOPN) .web elevenLog
    [(.web, .first), (.web, .next), (.lcd, .first), (.lcd, .next), (.web, .first)] :=
  (shown_independent elevenLog _ .web).1 (by decide +kernel)

/-- An LCD page between two web pages moves the web reader up the log. -/
theorem not_shown_independent : ¬ ∀ (m : Eeprom) (types : Browser → LogType) (s : Log)
    (cmds : List (Browser × PageCmd)) (b : Browser), Independent m types b s cmds := by
  intro h
  have := h elevenMem (fun _ => .AOPN) elevenLog [(.web, .first), (.lcd, .first), (.web, .next)] .web _
    List.prefix_rfl
  revert this
  decide +kernel

/-- And the last web page of a log marks the flag of the LCD, which shows another one. -/
example : ¬Undisturbed elevenMem (fun b => if b = .web then .AOPN else .BOPN) .lcd 0
    (elevenLog.setNextWriteAddr .BOPN (slotAddr .BOPN 0))
    [(.lcd, .first), (.web, .first), (.web, .next)] := by
  decide +kernel

end Log

end VectorFence
