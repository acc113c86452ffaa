import VectorFence.Lib.RoundRobin
import VectorFence.Lcd.Editing

/-! The list of the current alarms. `DisplayAlarmTypeList` makes the list anew when the alarm word
    has changed and draws it when it has not; of more than three alarms it draws the three at
    `alarm_key_adj`:

        alarm_sequence_buf   0  1  2  3  …  rol - adj - 2 │ rol - adj - 1 │ rol - adj  …  rol
                                            └──── third ─────── second ────── first line ┘

    UP and DOWN move the offset within the list that was drawn last, `alarm_rol + 1` being its
    length. -/

namespace VectorFence

open Lcd

/-- The variables of `DisplayMenu.c` for the list, with `old_Alarm_Type_Sum`. What is read beside
    `alarm_sequence_buf` is whatever lies there. -/
structure AlarmList where
  alarmRol : ℤ
  alarmTypeCnt : ℕ
  alarmKeyAdj : ℤ
  alarmSequenceBuf : ℤ → ℕ
  oldAlarmTypeSum : AlarmWord

namespace AlarmList

def powerOn : AlarmList := ⟨0, 0, 0, fun _ => 0, 0⟩

/-- One bit of the alarm word. -/
def addType (cur : AlarmWord) (s : AlarmList) (i : ℕ) : AlarmList :=
  if cur.getLsbD i then
    { s with
      alarmSequenceBuf := Function.update s.alarmSequenceBuf s.alarmTypeCnt i
      alarmTypeCnt := s.alarmTypeCnt + 1 }
  else s

/-- `DisplayAlarmTypeList()`. -/
def display (cur : AlarmWord) (s : AlarmList) : AlarmList :=
  if s.oldAlarmTypeSum ≠ cur then
    { (List.range 10).reverse.foldl (addType cur) { s with alarmTypeCnt := 0 } with oldAlarmTypeSum := cur }
  else { s with alarmRol := s.alarmTypeCnt - 1 }

/-- `for(i = first; …; i --)`, `n` times. -/
def countDown (first : ℤ) (n : ℕ) : List ℤ := (List.range n).map fun k : ℕ => first - k

/-- The index in `alarm_sequence_buf` and the one in `dis_buf` of each line that is drawn. -/
def displayReads (cur : AlarmWord) (s : AlarmList) : List (ℤ × ℤ) :=
  let rol : ℤ := s.alarmTypeCnt - 1
  if s.oldAlarmTypeSum ≠ cur then []
  else if s.alarmTypeCnt < 4 then (countDown rol s.alarmTypeCnt).map fun i => (i, rol - i)
  else (countDown (rol - s.alarmKeyAdj) 3).map fun i => (i, rol - i - s.alarmKeyAdj)

def keyUp (s : AlarmList) : AlarmList :=
  { s with alarmKeyAdj := if s.alarmKeyAdj - 1 < 0 then s.alarmRol - 2 else s.alarmKeyAdj - 1 }

def keyDown (s : AlarmList) : AlarmList :=
  { s with alarmKeyAdj := if s.alarmKeyAdj + 1 > s.alarmRol - 2 then 0 else s.alarmKeyAdj + 1 }

/-- What `main_task` does to the list: the list is closed without an alarm, or drawn, by itself or
    after a key. Each time it is drawn the alarm word is read again. -/
inductive Call where
  | clear
  | refresh (cur : AlarmWord)
  | up (cur : AlarmWord)
  | down (cur : AlarmWord)
  deriving DecidableEq, Repr

def step (s : AlarmList) : Call → AlarmList
  | .clear => { s with alarmTypeCnt := 0, oldAlarmTypeSum := 0, alarmKeyAdj := 0 }
  | .refresh cur => s.display cur
  | .up cur => s.keyUp.display cur
  | .down cur => s.keyDown.display cur

def reads (s : AlarmList) : Call → List (ℤ × ℤ)
  | .clear => []
  | .refresh cur => s.displayReads cur
  | .up cur => s.keyUp.displayReads cur
  | .down cur => s.keyDown.displayReads cur

/-! ### The lines -/

/-- The name of a switch by `SW_Type`. The code for more than three alarms has none for 0. -/
def switchName (long : Bool) (n : Fin 2) (swType : Int8) : String :=
  if swType = 0 then (if long then "" else if n = 0 then "开关量1" else "开关量2")
  else if swType = 1 then "主动红外告警"
  else if swType = 2 then "被动红外告警"
  else if swType = 3 then "双鉴探测告警"
  else if swType = 4 then "环境探测告警"
  else if swType = 5 then "门磁探测告警"
  else if swType = 6 then "紧急按钮告警"
  else if swType = 7 then "水浸探测告警"
  else if swType = 8 then "其它设备告警"
  else ""

/-- The text of an alarm, by its bit. -/
def lineText (swType : Fin 2 → Int8) (long : Bool) : ℕ → Option String
  | 0 => some ("A" ++ "防区入侵告警")
  | 1 => some ("A" ++ "防区断线告警")
  | 2 => some ("B" ++ "防区入侵告警")
  | 3 => some ("B" ++ "防区断线告警")
  | 4 => some "防拆告警"
  | 5 => some ("A" ++ "区" ++ switchName long 0 (swType 0))
  | 6 => some ("B" ++ "区" ++ switchName long 1 (swType 1))
  | 8 => some ("A" ++ "防区松弛告警")
  | 9 => some ("B" ++ "防区松弛告警")
  | _ => none

/-- The lines that are drawn, each with its place in `dis_buf`. -/
def lines (swType : Fin 2 → Int8) (s : AlarmList) (c : Call) : List (ℤ × String) :=
  (s.reads c).filterMap fun p =>
    (lineText swType (4 ≤ (s.step c).alarmTypeCnt) ((s.step c).alarmSequenceBuf p.1)).map fun text =>
      (p.2, text)

end AlarmList

/-! ### The turns of `main_task` -/

/-- One turn, with the alarm word each time it is read: by the calls of `DisplayAlarmTypeList` when
    an idle panel enters the screen, on the screen, and after a key; the two comparisons with 0 are
    in `env`. -/
structure ListTurn where
  env : Env
  key : Key
  entry : AlarmWord
  refresh : AlarmWord
  pressed : AlarmWord

namespace ListTurn

open AlarmList

def calls (t : ListTurn) (s : Lcd) : List Call :=
  let idle := idleTurn t.env t.key s
  (if s.currentScreen = .runScreen ∧
    idle.currentScreen = .alarmTypeListScreen then [.refresh t.entry] else []) ++
    if idle.currentScreen = .alarmTypeListScreen then
      if t.env.alarmList = 0 then [.clear]
      else .refresh t.refresh :: match t.key with
        | .up => [.up t.pressed]
        | .down => [.down t.pressed]
        | _ => []
    else []

/-- The screen after a turn. -/
def next (s : Lcd) (t : ListTurn) : Lcd := mainTask t.env t.key s

/-- The calls of a run. -/
def runCalls : Lcd → List ListTurn → List Call
  | _, [] => []
  | s, t :: ts => t.calls s ++ runCalls (next s t) ts

end ListTurn

namespace AlarmList

/-! ### The list of a word -/

/-- The alarms of a word, in the order of the list. -/
def types (cur : AlarmWord) : List ℕ := (List.range 10).reverse.filter fun i => cur.getLsbD i

variable {s : AlarmList} {cur : AlarmWord}

/-- Bits are put behind what is there. -/
theorem foldl_addType (cur : AlarmWord) (bits : List ℕ) (s : AlarmList) :
    let s' := bits.foldl (addType cur) s
    s'.alarmRol = s.alarmRol ∧ s'.alarmKeyAdj = s.alarmKeyAdj ∧
      s'.alarmTypeCnt = s.alarmTypeCnt + (bits.filter fun i => cur.getLsbD i).length ∧
      (∀ j < (s.alarmTypeCnt : ℤ), s'.alarmSequenceBuf j = s.alarmSequenceBuf j) ∧
      ∀ (k : ℕ) (hk : k < (bits.filter fun i => cur.getLsbD i).length),
        s'.alarmSequenceBuf (s.alarmTypeCnt + k) = (bits.filter fun i => cur.getLsbD i)[k] := by
  induction bits generalizing s with
  | nil => exact ⟨rfl, rfl, rfl, fun _ _ => rfl, fun k hk => absurd hk (Nat.not_lt_zero k)⟩
  | cons i bits ih =>
    obtain ⟨hrol, hadj, hcnt, hold, hnew⟩ := ih (addType cur s i)
    rw [List.foldl_cons]
    by_cases hbit : cur.getLsbD i = true
    · have hadd : addType cur s i =
          { s with
            alarmSequenceBuf := Function.update s.alarmSequenceBuf s.alarmTypeCnt i
            alarmTypeCnt := s.alarmTypeCnt + 1 } := if_pos hbit
      have hfilter : (i :: bits).filter (fun i => cur.getLsbD i) = i :: bits.filter fun i =>
        cur.getLsbD i :=
        List.filter_cons_of_pos hbit
      simp only [hadd] at hrol hadj hcnt hold hnew ⊢
      simp only [hfilter, List.length_cons]
      refine ⟨hrol, hadj, by omega, fun j hj => ?_, fun k hk => ?_⟩
      · rw [hold j (by omega), Function.update_of_ne (by omega)]
      · cases k with
        | zero =>
          rw [Nat.cast_zero, add_zero, hold _ (by omega), Function.update_self]
          rfl
        | succ k =>
          have hlater := hnew k (by omega)
          rw [List.getElem_cons_succ, ← hlater]
          congr 1
          omega
    · have hadd : addType cur s i = s := if_neg hbit
      have hfilter : (i :: bits).filter (fun i => cur.getLsbD i) = bits.filter fun i => cur.getLsbD i :=
        List.filter_cons_of_neg hbit
      simp only [hadd] at hrol hadj hcnt hold hnew ⊢
      simp only [hfilter]
      exact ⟨hrol, hadj, hcnt, hold, hnew⟩

/-- The list is the one of the word it was made of. -/
structure Listed (s : AlarmList) : Prop where
  cnt : s.alarmTypeCnt = (types s.oldAlarmTypeSum).length
  buf : ∀ (k : ℕ) (hk : k < (types s.oldAlarmTypeSum).length),
    s.alarmSequenceBuf k = (types s.oldAlarmTypeSum)[k]

/-- Drawing the list, or making it anew. -/
theorem Listed.display (h : s.Listed) (cur : AlarmWord) :
    (s.display cur).Listed ∧ (s.display cur).oldAlarmTypeSum = cur ∧
    (s.display cur).alarmKeyAdj = s.alarmKeyAdj ∧
      (s.display cur).alarmRol = if s.oldAlarmTypeSum = cur then
      (s.alarmTypeCnt : ℤ) - 1 else s.alarmRol := by
  by_cases hold : s.oldAlarmTypeSum = cur
  · have hdisplay : s.display cur = { s with alarmRol := s.alarmTypeCnt - 1 } :=
      if_neg (not_not.mpr hold)
    rw [hdisplay, if_pos hold]
    exact ⟨⟨h.cnt, h.buf⟩, hold, rfl, rfl⟩
  · have hdisplay : s.display cur
      = { (List.range 10).reverse.foldl (addType cur) { s with alarmTypeCnt := 0 } with
        oldAlarmTypeSum := cur } := if_pos hold
    obtain ⟨hrol, hadj, hcnt, -, hnew⟩ :=
      foldl_addType cur (List.range 10).reverse { s with alarmTypeCnt := 0 }
    rw [hdisplay, if_neg hold]
    refine ⟨⟨?_, fun k hk => ?_⟩, rfl, hadj, hrol⟩
    · simp only [hcnt]
      exact Nat.zero_add _
    · rw [← show _ = (types cur)[k] from hnew k hk, Nat.cast_zero, zero_add]

theorem listed_powerOn : powerOn.Listed := ⟨rfl, fun k hk => absurd hk (Nat.not_lt_zero k)⟩

theorem listed_clear (s : AlarmList) :
    (s.step .clear).oldAlarmTypeSum = 0 ∧ (s.step .clear).Listed := by
  have hnone : types 0 = [] := by decide
  refine ⟨rfl, ?_, fun k hk => absurd hk ?_⟩
  · change 0 = (types 0).length
    rw [hnone, List.length_nil]
  · change ¬k < (types 0).length
    rw [hnone]
    exact Nat.not_lt_zero k

theorem listed_keyUp (h : s.Listed) : s.keyUp.Listed := ⟨h.cnt, h.buf⟩

theorem listed_keyDown (h : s.Listed) : s.keyDown.Listed := ⟨h.cnt, h.buf⟩

theorem Listed.step (h : s.Listed) (c : Call) : (s.step c).Listed := by
  cases c with
  | clear => exact (listed_clear s).2
  | refresh cur => exact (h.display cur).1
  | up cur => exact ((listed_keyUp h).display cur).1
  | down cur => exact ((listed_keyDown h).display cur).1

theorem types_length_le (cur : AlarmWord) : (types cur).length ≤ 10 := by
  refine (List.length_filter_le _ _).trans ?_
  simp

/-- `alarm_rol` and `alarm_key_adj` are `s8`; they are small enough never to leave its range. -/
structure InS8 (s : AlarmList) : Prop where
  rol : -1 ≤ s.alarmRol ∧ s.alarmRol ≤ 9
  adj : -3 ≤ s.alarmKeyAdj ∧ s.alarmKeyAdj ≤ 7

theorem InS8.display (h : s.InS8) (hlisted : s.Listed) (cur : AlarmWord) : (s.display cur).InS8 := by
  obtain ⟨-, -, hadj, hrol⟩ := hlisted.display cur
  have hcnt := hlisted.cnt
  have hle := types_length_le s.oldAlarmTypeSum
  have hsmall := h.rol
  refine ⟨?_, hadj ▸ h.adj⟩
  rw [hrol]
  split_ifs <;> omega

theorem InS8.step (h : s.InS8) (hlisted : s.Listed) (c : Call) : (s.step c).InS8 := by
  obtain ⟨hrol, hadj⟩ := h
  have hup : s.keyUp.InS8 := by
    refine ⟨hrol, ?_⟩
    simp only [keyUp]
    split_ifs <;> omega
  have hdown : s.keyDown.InS8 := by
    refine ⟨hrol, ?_⟩
    simp only [keyDown]
    split_ifs <;> omega
  cases c with
  | clear => exact ⟨hrol, neg_nonpos.mpr (by norm_num), by norm_num [AlarmList.step]⟩
  | refresh cur => exact InS8.display ⟨hrol, hadj⟩ hlisted cur
  | up cur => exact hup.display (listed_keyUp hlisted) cur
  | down cur => exact hdown.display (listed_keyDown hlisted) cur

theorem run_inS8 (cs : List Call) : (cs.foldl AlarmList.step powerOn).InS8 :=
  (Run.foldl_inv (fun s : AlarmList => s.Listed ∧
    s.InS8) (fun _ c h => ⟨h.1.step c, h.2.step h.1 c⟩) cs _
    ⟨listed_powerOn, by decide, by decide⟩).2

/-! ### The offset -/

/-- An offset with three alarms of the word below it, where the list does not fit on the screen. -/
def Fits (cur : AlarmWord) (adj : ℤ) : Prop :=
  4 ≤ (types cur).length → 0 ≤ adj ∧ adj + 3 ≤ (types cur).length

/-- The word is not the one that was drawn last. -/
def Changed (s : AlarmList) (cur : AlarmWord) : Prop :=
  cur ≠ s.oldAlarmTypeSum ∨ s.alarmRol ≠ s.alarmTypeCnt - 1

/-- The list, when it has changed, is long enough for the offset that it is opened with, and for the
    one that a key makes of it by the length that was drawn last. -/
def Keeps (s : AlarmList) : Call → Prop
  | .clear => True
  | .refresh cur => cur ≠ s.oldAlarmTypeSum → Fits cur s.alarmKeyAdj
  | .up cur =>
      s.Changed cur → Fits cur (if 0 < s.alarmKeyAdj then s.alarmKeyAdj - 1 else s.alarmRol - 2)
  | .down cur =>
      s.Changed cur → Fits cur (if s.alarmKeyAdj + 3 ≤ s.alarmRol then s.alarmKeyAdj + 1 else 0)

structure Sound (s : AlarmList) : Prop where
  listed : s.Listed
  fits : Fits s.oldAlarmTypeSum s.alarmKeyAdj

theorem sound_powerOn : powerOn.Sound := ⟨listed_powerOn, fun h => absurd h (by decide)⟩

/-- Whatever the list was, drawing it leaves the offset. -/
theorem Listed.display_sound (h : s.Listed) (cur : AlarmWord) :
    (s.display cur).Sound ↔ Fits cur s.alarmKeyAdj := by
  obtain ⟨hlisted, hold, hadj, -⟩ := h.display cur
  constructor
  · intro hsound
    have hfits := hsound.fits
    rwa [hold, hadj] at hfits
  · intro hfits
    refine ⟨hlisted, ?_⟩
    rwa [hold, hadj]

theorem not_changed {s : AlarmList} (h : ¬s.Changed cur) :
    cur = s.oldAlarmTypeSum ∧ s.alarmRol = s.alarmTypeCnt - 1 := by
  simpa only [Changed, not_or, not_not] using h

theorem Sound.step_iff (h : s.Sound) (c : Call) : (s.step c).Sound ↔ s.Keeps c := by
  obtain ⟨hlisted, hfits⟩ := h
  cases c with
  | clear =>
    obtain ⟨hold, hclear⟩ := listed_clear s
    refine iff_of_true ⟨hclear, ?_⟩ trivial
    rw [hold]
    exact fun hlen => absurd hlen (by decide)
  | refresh cur =>
    rw [AlarmList.step, hlisted.display_sound]
    refine ⟨fun hfit _ => hfit, fun hkeep => ?_⟩
    rcases eq_or_ne cur s.oldAlarmTypeSum with rfl | hne
    · exact hfits
    · exact hkeep hne
  | up cur =>
    have hkey : s.keyUp.alarmKeyAdj = if 0 < s.alarmKeyAdj then
      s.alarmKeyAdj - 1 else s.alarmRol - 2 := by
      simp only [keyUp]
      split_ifs <;> omega
    rw [AlarmList.step, (listed_keyUp hlisted).display_sound, hkey]
    refine ⟨fun hfit _ => hfit, fun hkeep => ?_⟩
    by_cases hch : s.Changed cur
    · exact hkeep hch
    · obtain ⟨rfl, hrol⟩ := not_changed hch
      intro hlen
      have hin := hfits hlen
      have hcnt := hlisted.cnt
      split_ifs <;> omega
  | down cur =>
    have hkey : s.keyDown.alarmKeyAdj =
        if s.alarmKeyAdj + 3 ≤ s.alarmRol then s.alarmKeyAdj + 1 else 0 := by
      simp only [keyDown]
      split_ifs <;> omega
    rw [AlarmList.step, (listed_keyDown hlisted).display_sound, hkey]
    refine ⟨fun hfit _ => hfit, fun hkeep => ?_⟩
    by_cases hch : s.Changed cur
    · exact hkeep hch
    · obtain ⟨rfl, hrol⟩ := not_changed hch
      intro hlen
      have hin := hfits hlen
      have hcnt := hlisted.cnt
      split_ifs <;> omega

/-! ### What is read -/

/-- The indices lie in the list and on the screen. -/
def InList (s : AlarmList) (c : Call) : Prop :=
  ∀ p ∈ s.reads c, (0 ≤ p.1 ∧ p.1 < (s.step c).alarmTypeCnt) ∧ 0 ≤ p.2 ∧ p.2 ≤ 2

theorem mem_countDown {first i : ℤ} {n : ℕ} :
    i ∈ countDown first n ↔ ∃ k : ℕ, k < n ∧ i = first - k := by
  simp only [countDown, List.mem_map, List.mem_range]
  constructor
  · rintro ⟨k, hk, rfl⟩
    exact ⟨k, hk, rfl⟩
  · rintro ⟨k, hk, rfl⟩
    exact ⟨k, hk, rfl⟩

/-- All of a short list, three of a long one. -/
theorem mem_displayReads {p : ℤ × ℤ} : p ∈ s.displayReads cur ↔ s.oldAlarmTypeSum = cur ∧
    (s.alarmTypeCnt < 4 ∧ (∃ k : ℕ, k < s.alarmTypeCnt ∧ p = ((s.alarmTypeCnt : ℤ) - 1 - k, (k : ℤ))) ∨
      4 ≤ s.alarmTypeCnt ∧ ∃ k : ℕ, k < 3 ∧
      p = ((s.alarmTypeCnt : ℤ) - 1 - s.alarmKeyAdj - k, (k : ℤ))) := by
  simp only [displayReads]
  by_cases hold : s.oldAlarmTypeSum = cur
  · rw [if_neg (not_not.mpr hold)]
    by_cases hshort : s.alarmTypeCnt < 4
    · rw [if_pos hshort, List.mem_map]
      constructor
      · rintro ⟨i, hi, rfl⟩
        obtain ⟨k, hk, rfl⟩ := mem_countDown.mp hi
        refine ⟨hold, Or.inl ⟨hshort, k, hk, ?_⟩⟩
        rw [sub_sub_cancel]
      · rintro ⟨-, ⟨-, k, hk, rfl⟩ | ⟨hlong, -⟩⟩
        · refine ⟨_, mem_countDown.mpr ⟨k, hk, rfl⟩, ?_⟩
          rw [sub_sub_cancel]
        · omega
    · rw [if_neg hshort, List.mem_map]
      constructor
      · rintro ⟨i, hi, rfl⟩
        obtain ⟨k, hk, rfl⟩ := mem_countDown.mp hi
        refine ⟨hold, Or.inr ⟨not_lt.mp hshort, k, hk, Prod.ext rfl ?_⟩⟩
        simp only
        ring
      · rintro ⟨-, ⟨hlt, -⟩ | ⟨-, k, hk, rfl⟩⟩
        · exact absurd hlt hshort
        · refine ⟨_, mem_countDown.mpr ⟨k, hk, rfl⟩, Prod.ext rfl ?_⟩
          simp only
          ring
  · rw [if_pos hold]
    constructor
    · intro hmem
      exact absurd hmem List.not_mem_nil
    · rintro ⟨heq, -⟩
      exact absurd heq hold

/-- An offset that fits keeps the indices in the list. -/
theorem Listed.reads_in (h : s.Listed) (hfits : Fits cur s.alarmKeyAdj) :
    ∀ p ∈ s.displayReads cur, (0 ≤ p.1 ∧ p.1 < (s.display cur).alarmTypeCnt) ∧ 0 ≤ p.2 ∧ p.2 ≤ 2 := by
  obtain ⟨hlisted, hword, -, -⟩ := h.display cur
  have hlen := hlisted.cnt
  rw [hword] at hlen
  have hcnt := h.cnt
  rintro p hp
  obtain ⟨rfl, ⟨hshort, k, hk, rfl⟩ | ⟨hlong, k, hk, rfl⟩⟩ := mem_displayReads.mp hp
  · simp only
    omega
  · have hin := hfits (by omega)
    simp only
    omega

theorem Sound.inList (h : s.Sound) {c : Call} (hstep : (s.step c).Sound) : s.InList c := by
  obtain ⟨hlisted, hfits⟩ := h
  cases c with
  | clear => exact fun p hp => absurd hp List.not_mem_nil
  | refresh cur => exact hlisted.reads_in ((hlisted.display_sound cur).mp hstep)
  | up cur =>
      exact (listed_keyUp hlisted).reads_in (((listed_keyUp hlisted).display_sound cur).mp hstep)
  | down cur =>
      exact (listed_keyDown hlisted).reads_in (((listed_keyDown hlisted).display_sound cur).mp hstep)

/-- Drawing the list again tells whether the offset fits. -/
theorem Listed.sound_iff (h : s.Listed) : s.Sound ↔ s.InList (.refresh s.oldAlarmTypeSum) := by
  obtain ⟨hlisted, hword, -, -⟩ := h.display s.oldAlarmTypeSum
  have hcnt' := hlisted.cnt
  rw [hword] at hcnt'
  constructor
  · intro hsound
    exact h.reads_in hsound.fits
  · intro hin
    refine ⟨h, fun hlen => ?_⟩
    have hcnt := h.cnt
    have hfirst := hin _ (mem_displayReads.mpr ⟨rfl, Or.inr ⟨by omega, 0, by omega, rfl⟩⟩)
    have hlast := hin _ (mem_displayReads.mpr ⟨rfl, Or.inr ⟨by omega, 2, by omega, rfl⟩⟩)
    simp only [AlarmList.step] at hfirst hlast
    omega

/-- A call and the next turn, which draws the list again. -/
def StaysInList (s : AlarmList) (c : Call) : Prop :=
  s.InList c ∧ (s.step c).InList (.refresh (s.step c).oldAlarmTypeSum)

theorem Sound.staysInList_iff (h : s.Sound) (c : Call) : s.StaysInList c ↔ (s.step c).Sound := by
  rw [StaysInList, ← (h.listed.step c).sound_iff]
  exact ⟨fun hin => hin.2, fun hstep => ⟨h.inList hstep, hstep⟩⟩

/-! ### Pressing DOWN again and again -/

/-- A turn while the alarms stay and no key but DOWN is pressed. -/
def Scrolls (cur : AlarmWord) (c : Call) : Prop := c = .refresh cur ∨ c = .down cur

def isDown : Call → Bool
  | .down _ => true
  | _ => false

/-- The list of `cur` has been drawn. -/
structure Drawn (cur : AlarmWord) (s : AlarmList) : Prop where
  listed : s.Listed
  word : s.oldAlarmTypeSum = cur
  rol : s.alarmRol = s.alarmTypeCnt - 1

theorem Drawn.cnt (h : s.Drawn cur) : s.alarmTypeCnt = (types cur).length := by
  have hcnt := h.listed.cnt
  rwa [h.word] at hcnt

section Scrolls

variable {c : Call}

theorem Listed.step_scrolls (h : s.Listed) (hc : Scrolls cur c) :
    (s.step c).Listed ∧ (s.step c).oldAlarmTypeSum = cur ∧
      (s.step c).alarmKeyAdj.natAbs ≤ s.alarmKeyAdj.natAbs + 1 := by
  rcases hc with rfl | rfl
  · obtain ⟨hlisted, hold, hadj, -⟩ := h.display cur
    refine ⟨hlisted, hold, ?_⟩
    rw [AlarmList.step, hadj]
    exact Nat.le_succ _
  · obtain ⟨hlisted, hold, hadj, -⟩ := (listed_keyDown h).display cur
    refine ⟨hlisted, hold, ?_⟩
    rw [AlarmList.step, hadj, keyDown]
    simp only
    split_ifs <;> omega

/-- A list that is up to date is drawn. -/
theorem Listed.drawn (h : s.Listed) (hword : s.oldAlarmTypeSum = cur) (hc : Scrolls cur c) :
    (s.step c).Drawn cur := by
  obtain ⟨hlisted, hold, -⟩ := h.step_scrolls hc
  refine ⟨hlisted, hold, ?_⟩
  have hcnt := hlisted.cnt
  have hcnt' := h.cnt
  rw [hold] at hcnt
  rw [hword] at hcnt'
  rw [hcnt, ← hcnt']
  rcases hc with rfl | rfl
  · exact (h.display cur).2.2.2.trans (if_pos hword)
  · exact ((listed_keyDown h).display cur).2.2.2.trans (if_pos hword)

/-- The offset goes round. -/
theorem Drawn.step_adj (h : s.Drawn cur) (hc : Scrolls cur c) : (s.step c).alarmKeyAdj =
    if isDown c then RoundRobin.next ((types cur).length - 3) s.alarmKeyAdj else s.alarmKeyAdj := by
  have hrol := h.rol
  rw [h.cnt] at hrol
  rcases hc with rfl | rfl
  · exact (h.listed.display cur).2.2.1
  · refine ((listed_keyDown h.listed).display cur).2.2.1.trans ?_
    simp only [keyDown, isDown, if_true, RoundRobin.next, hrol]
    split_ifs <;> omega

/-- What is read of a list that is up to date. -/
theorem Drawn.mem_reads (h : s.Drawn cur) (hc : Scrolls cur c) {p : ℤ × ℤ}
    (hp : (types cur).length < 4 ∧
    (∃ k : ℕ, k < (types cur).length ∧ p = (((types cur).length : ℤ) - 1 - k, (k : ℤ))) ∨
      4 ≤ (types cur).length ∧
        ∃ k : ℕ, k < 3 ∧ p = (((types cur).length : ℤ) - 1 - (s.step c).alarmKeyAdj - k, (k : ℤ))) :
        p ∈ s.reads c := by
  rw [← h.cnt] at hp
  rcases hc with rfl | rfl
  · have hadj : (s.step (.refresh cur)).alarmKeyAdj = s.alarmKeyAdj := (h.listed.display cur).2.2.1
    rw [hadj] at hp
    exact mem_displayReads.mpr ⟨h.word, hp⟩
  · have hadj : (s.step (.down cur)).alarmKeyAdj = s.keyDown.alarmKeyAdj :=
      ((listed_keyDown h.listed).display cur).2.2.1
    rw [hadj] at hp
    exact mem_displayReads.mpr ⟨h.word, hp⟩

theorem Drawn.mem_lines (h : s.Drawn cur) (hc : Scrolls cur c) (swType : Fin 2 → Int8) {j : ℕ} {row : ℤ}
    {text : String} (hj : j < (types cur).length) (hread : ((j : ℤ), row) ∈ s.reads c)
    (htext : lineText swType (4 ≤ (types cur).length) (types cur)[j] = some text) :
    (row, text) ∈ s.lines swType c := by
  have hdrawn := h.listed.drawn h.word hc
  have hcnt := hdrawn.cnt
  obtain ⟨hlisted, hword, -⟩ := hdrawn
  have hbuf := hlisted.buf
  rw [hword] at hbuf
  refine List.mem_filterMap.mpr ⟨_, hread, ?_⟩
  simp only [hcnt, hbuf j hj, htext, Option.map_some]

end Scrolls

/-- The offset at which an alarm of a long list is on the screen. -/
theorem offset_of {n j : ℕ} (hn : 4 ≤ n) (hj : j < n) : ∃ t : ℤ, (0 ≤ t ∧ t ≤ (n : ℤ) - 3) ∧
    ∃ k : ℕ, k < 3 ∧ (j : ℤ) = n - 1 - t - k := by
  rcases Nat.lt_or_ge j 2 with h | h
  · exact ⟨n - 3, by omega, 2 - j, by omega, by omega⟩
  · exact ⟨n - 1 - j, by omega, 0, by omega, by omega⟩

/-- A list that is up to date shows every alarm. -/
theorem Drawn.sweep (h : s.Drawn cur) {as : List Call} (hscroll : ∀ c ∈ as, Scrolls cur c)
    (hn : s.alarmKeyAdj.natAbs + 20 ≤ as.countP isDown) (swType : Fin 2 → Int8) {j : ℕ}
    (hj : j < (types cur).length)
    {text : String} (htext : lineText swType (4 ≤ (types cur).length) (types cur)[j] = some text) :
    ∃ q ∈ Run.steps AlarmList.step s as, ∃ row, (row, text) ∈ q.1.lines swType q.2 := by
  have hle := types_length_le cur
  rcases Nat.lt_or_ge (types cur).length 4 with hshort | hlong
  · -- A short list is drawn as a whole.
    cases as with
    | nil => exact absurd hn (by simp)
    | cons c as =>
      refine ⟨(s, c), List.mem_cons_self .., (((types cur).length - 1 - j : ℕ) : ℤ), ?_⟩
      have hc := hscroll c (List.mem_cons_self ..)
      refine h.mem_lines hc swType hj
        (h.mem_reads hc (Or.inl ⟨hshort, (types cur).length - 1 - j, by omega, ?_⟩)) htext
      refine Prod.ext ?_ rfl
      simp only
      omega
  · obtain ⟨t, ht, k, hk, hjk⟩ := offset_of hlong hj
    have hrem := RoundRobin.remaining_le (a := s.alarmKeyAdj) ht
    obtain ⟨⟨r, c⟩, hq, hr, hmove, hreach⟩ :=
      RoundRobin.reaches AlarmList.alarmKeyAdj isDown (Drawn cur)
      (fun c hc s hs => ⟨hs.listed.drawn hs.word (hscroll c hc), hs.step_adj (hscroll c hc)⟩) ht
      h (by omega)
    have hc := hscroll c (Run.snd_mem_of_mem_steps hq)
    refine ⟨(r, c), hq, (k : ℤ),
      hr.mem_lines hc swType hj (hr.mem_reads hc (Or.inr ⟨hlong, k, hk, ?_⟩)) htext⟩
    simp only at hreach
    rw [hreach, ← hjk]

/-- Enough turns with DOWN show every alarm, wherever the offset was. -/
theorem Listed.sweep (h : s.Listed) (cur : AlarmWord) :
    ∃ n, ∀ as : List Call, (∀ c ∈ as, Scrolls cur c) →
    n ≤ as.countP isDown → ∀ (swType : Fin 2 → Int8), ∀ b ∈ types cur, ∀ text,
      lineText swType (4 ≤ (types cur).length) b = some text →
        ∃ q ∈ Run.steps AlarmList.step s as, ∃ row, (row, text) ∈ q.1.lines swType q.2 := by
  refine ⟨s.alarmKeyAdj.natAbs + 24, ?_⟩
  rintro as hscroll hn swType b hb text htext
  obtain ⟨j, hj, rfl⟩ := List.getElem_of_mem hb
  -- The first call may make the list anew, the second one draws it.
  match as, hscroll, hn with
  | [], _, hn => exact absurd hn (by simp)
  | [c], _, hn =>
    have hone := List.countP_le_length (p := isDown) (l := [c])
    rw [List.length_singleton] at hone
    omega
  | c :: d :: as, hscroll, hn =>
    rw [List.forall_mem_cons, List.forall_mem_cons] at hscroll
    obtain ⟨hc, hd, hrest⟩ := hscroll
    obtain ⟨hlisted, hword, hadj⟩ := h.step_scrolls hc
    have hadj' := (hlisted.step_scrolls hd).2.2
    have hcount : s.alarmKeyAdj.natAbs + 22 ≤ as.countP isDown := by
      rw [List.countP_cons, List.countP_cons] at hn
      split_ifs at hn <;> omega
    obtain ⟨q, hq, hline⟩ := (hlisted.drawn hword hd).sweep hrest (by omega) swType hj htext
    exact ⟨q, List.mem_cons_of_mem _ (List.mem_cons_of_mem _ hq), hline⟩

end AlarmList

namespace ListTurn

open AlarmList

/-- A turn that reads `cur` wherever it reads the alarm word, with DOWN or no key. -/
structure Steady (cur : AlarmWord) (t : ListTurn) : Prop where
  idle : t.env.alarmIdle = cur
  list : t.env.alarmList = cur
  refresh : t.refresh = cur
  pressed : t.pressed = cur
  key : t.key = .none ∨ t.key = .down

variable {cur : AlarmWord} {t : ListTurn} {s : Lcd}

/-- With an alarm, neither DOWN nor waiting leaves the list. -/
theorem Steady.next (h : t.Steady cur) (hcur : cur ≠ 0) (hs : s.currentScreen = .alarmTypeListScreen) :
    (next s t).currentScreen = .alarmTypeListScreen := by
  obtain ⟨n, hidle⟩ := idleTurn_counts t.env t.key (s := s) (by rw [hs]; decide)
  have hlist : t.env.alarmList ≠ 0 := by rw [h.list]; exact hcur
  rw [ListTurn.next, mainTask, hidle]
  simp only [keyPress, hs, pressAlarmTypeList, if_neg hlist]
  rcases h.key with hkey | hkey <;> simp only [hkey]

theorem Steady.calls (h : t.Steady cur) (hcur : cur ≠ 0) (hs : s.currentScreen = .alarmTypeListScreen) :
    t.calls s = .refresh cur :: if t.key = .down then [.down cur] else [] := by
  obtain ⟨n, hidle⟩ := idleTurn_counts t.env t.key (s := s) (by rw [hs]; decide)
  have hlist : t.env.alarmList ≠ 0 := by rw [h.list]; exact hcur
  rw [ListTurn.calls, hidle]
  simp only [hs, reduceCtorEq, false_and, if_false, List.nil_append, if_true, if_neg hlist,
    h.refresh, h.pressed]
  rcases h.key with hkey | hkey <;> simp [hkey]

/-- The calls of turns while the alarms stay. -/
theorem runCalls_steady (hcur : cur ≠ 0) {ts : List ListTurn} (hts : ∀ t ∈ ts, t.Steady cur)
    (hs : s.currentScreen = .alarmTypeListScreen) : (∀ c ∈ runCalls s ts, Scrolls cur c) ∧
      (runCalls s ts).countP isDown = ts.countP fun t => t.key = .down := by
  induction ts generalizing s with
  | nil => exact ⟨fun c hc => absurd hc List.not_mem_nil, rfl⟩
  | cons t ts ih =>
    rw [List.forall_mem_cons] at hts
    obtain ⟨hscroll, hcount⟩ := ih hts.2 (hts.1.next hcur hs)
    rw [runCalls, hts.1.calls hcur hs]
    constructor
    · intro c hc
      rcases List.mem_append.mp hc with hc | hc
      · rcases List.mem_cons.mp hc with rfl | hc
        · exact Or.inl rfl
        · split_ifs at hc with hdown
          · exact Or.inr (List.mem_singleton.mp hc)
          · exact absurd hc List.not_mem_nil
      · exact hscroll c hc
    · rw [List.countP_append, hcount, List.countP_cons (l := ts), add_comm]
      congr 1
      by_cases hdown : t.key = .down
      · simp [hdown, isDown]
      · simp [hdown, isDown]

end ListTurn

namespace AlarmList

open ListTurn

/-- From the start of the device, and for every run of `main_task`, the list that is drawn and drawn
    again stays inside exactly as long as the offset fits whenever the list has changed; and DOWN
    gets to every alarm. -/
theorem runCalls_iff (lcd : Lcd) (ts : List ListTurn) :
    ((∀ q ∈ Run.steps step powerOn (runCalls lcd ts), q.1.Keeps q.2) →
      ∀ q ∈ Run.steps step powerOn (runCalls lcd ts), q.1.InList q.2) ∧
    ((∀ q ∈ Run.steps step powerOn (runCalls lcd ts), q.1.StaysInList q.2) ↔
      ∀ q ∈ Run.steps step powerOn (runCalls lcd ts), q.1.Keeps q.2) ∧
    ((ts.foldl next lcd).currentScreen = .alarmTypeListScreen →
      ∀ cur : AlarmWord, ∃ n, ∀ us : List ListTurn,
      (∀ t ∈ us, t.Steady cur) → n ≤ us.countP (fun t => t.key = .down) →
        ∀ (swType : Fin 2 → Int8), ∀ b ∈ types cur, ∀ text,
          lineText swType (4 ≤ (types cur).length) b = some text →
            ∃ q ∈ Run.steps step ((runCalls lcd ts).foldl step powerOn)
            (runCalls (ts.foldl next lcd) us),
              ∃ row, (row, text) ∈ q.1.lines swType q.2) := by
  have hiff := Run.steps_iff_of Sound StaysInList Keeps (fun s c h hin => (h.staysInList_iff c).mp hin)
    (fun s c h => (h.staysInList_iff c).trans (h.step_iff c)) (runCalls lcd ts) _ sound_powerOn
  refine ⟨fun hkeep q hq => (hiff.mpr hkeep q hq).1, hiff, fun hscreen cur => ?_⟩
  have hlisted : ((runCalls lcd ts).foldl step powerOn).Listed :=
    Run.foldl_inv Listed (fun s c h => h.step c) _ _ listed_powerOn
  obtain ⟨n, hn⟩ := hlisted.sweep cur
  refine ⟨n, fun us hus hdown swType b hb text htext => ?_⟩
  have hcur : cur ≠ 0 := by
    rintro rfl
    have hnone : types 0 = [] := by decide
    rw [hnone] at hb
    exact absurd hb List.not_mem_nil
  obtain ⟨hscroll, hcount⟩ := runCalls_steady hcur hus hscreen
  exact hn _ hscroll (hcount ▸ hdown) swType b hb text htext

/-! ### A list that shrinks -/

/-- A turn in which the alarm word is `cur` throughout. -/
def turn (cur : AlarmWord) (k : Key) : ListTurn where
  env := { alarmIdle := cur, alarmList := cur, fieldFlagS0D1 := false, calibratingFlag := 0xFF, calibrateEn _ := 0 }
  key := k
  entry := cur
  refresh := cur
  pressed := cur

/-- Seven alarms open the list and DOWN goes to its end; then three of them end. -/
def shrinking : List ListTurn :=
  List.replicate 50 (turn 0x31F .none) ++ List.replicate 4 (turn 0x31F .down) ++ [turn 0x00F .none,
    turn 0x00F .none]

/-- The calls before the last one. -/
def shrinkingCalls : List Call :=
  [.refresh 0x31F, .refresh 0x31F, .refresh 0x31F, .down 0x31F, .refresh 0x31F, .down 0x31F,
    .refresh 0x31F,
    .down 0x31F, .refresh 0x31F, .down 0x31F, .refresh 0x00F]

theorem runCalls_shrinking : runCalls Lcd.powerOn shrinking = shrinkingCalls ++ [.refresh 0x00F] := by
  decide +kernel

/-- The three lines are read in front of the list. -/
theorem reads_shrinking : (shrinkingCalls.foldl step powerOn).reads (.refresh 0x00F) =
    [(-1, 0), (-2, 1), (-3, 2)] := by
  decide +kernel

theorem not_inList : ¬ ∀ (lcd : Lcd) (ts : List ListTurn),
    ∀ q ∈ Run.steps step powerOn (runCalls lcd ts),
    q.1.InList q.2 := by
  intro h
  have hlast : (shrinkingCalls.foldl step powerOn, Call.refresh 0x00F) ∈
      Run.steps step powerOn (runCalls Lcd.powerOn shrinking) := by
    rw [runCalls_shrinking, Run.steps_append]
    exact List.mem_append_right _ (List.mem_singleton_self _)
  have hread := h Lcd.powerOn shrinking _ hlast (-1, 0)
  rw [reads_shrinking] at hread
  exact absurd (hread (List.mem_cons_self ..)).1.1 (by decide)

end AlarmList

end VectorFence
