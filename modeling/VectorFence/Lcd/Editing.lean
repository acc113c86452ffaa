import VectorFence.Lcd.MainTask

/-! An editor is open only on its own screen. ENTER in one of its rows opens it, and there is no way to
    another screen but through `NormalState`:

        other screens ◀──▶ editor, NormalState ──ENTER──▶ editor, ModifyState
                                      ▲──────ESC, ENTER──────┘ -/

namespace VectorFence

namespace Lcd

open Screen Handler

/-- The screens with an editor. -/
def isEditor : Screen → Bool
  | setBuFangParaScreen | setAlarmThresholdScreen | setDateTimeScreen | setAFangQuParaScreen
  | setBFangQuParaScreen | setExtDeviceTypeScreen => true
  | _ => false

/-- `flag_PageState` is `ModifyState` on the screen of an editor only. -/
def OnEditor (s : Lcd) : Prop := s.flagPageState = .modifyState → isEditor s.currentScreen = true

def Jump.opens (j : Jump) : Bool := j.upd.page == some .modifyState

namespace Handler

def edits : Handler → Bool
  | editor _ => true
  | _ => false

/-- No jump opens an editor, and an editor is closed when an edit ends. -/
def tidy : Handler → Bool
  | menu _ esc enter => !esc.opens && enter.all fun j => !j.opens
  | page esc enter => !esc.opens && enter.toList.all fun j => !j.opens
  | editor ed =>
      !ed.esc.opens && ed.cancel.page == some .normalState && ed.accept.page == some .normalState
  | digits esc _ _ => !esc.opens
  | wait _ _ => true
  | idle => true

end Handler

theorem handler_edits (e : Env) (u : User) (x : Screen) : (handler e u x).edits = isEditor x := by
  cases x <;> rfl

theorem handler_tidy (e : Env) (u : User) (x : Screen) : (handler e u x).tidy = true := by
  cases x <;> rfl

theorem not_modify_iff {s : Lcd} : s.flagPageState ≠ .modifyState ↔ s.flagPageState = .normalState := by
  cases s.flagPageState <;> simp

/-- A jump that opens nothing leaves nothing open. -/
theorem go_normal {j : Jump} (hj : j.opens = false) {s : Lcd} (hs : s.flagPageState = .normalState) :
    (s.go j).flagPageState = .normalState := by
  have hpage : (s.go j).flagPageState = j.upd.page.getD s.flagPageState := rfl
  rw [hpage, hs]
  rcases hu : j.upd.page with _ | x
  · rfl
  · cases x with
    | normalState => rfl
    | modifyState => rw [Jump.opens, hu] at hj; exact absurd hj (by decide)

/-- Without an editor nothing is opened. -/
theorem press_normal {h : Handler} (hedits : h.edits = false) (htidy : h.tidy = true)
    (k : Key) {s : Lcd}
    (hs : s.flagPageState = .normalState) : (h.press k s).flagPageState = .normalState := by
  cases h with
  | menu rows esc enter =>
    simp only [tidy, Bool.and_eq_true, Bool.not_eq_true', List.all_eq_true] at htidy
    cases k with
    | esc => exact go_normal htidy.1 hs
    | enter =>
      rcases hc : choice enter s.rowPoint with _ | j
      · simpa [press, hc] using hs
      · simpa [press, hc] using go_normal (htidy.2 j (choice_mem hc)) hs
    | _ => exact hs
  | page esc enter =>
    simp only [tidy, Bool.and_eq_true, Bool.not_eq_true', List.all_eq_true] at htidy
    cases k with
    | esc => exact go_normal htidy.1 hs
    | enter =>
      rcases enter with _ | j
      · exact hs
      · exact go_normal (htidy.2 j (by simp)) hs
    | _ => exact hs
  | editor ed => exact absurd hedits (by simp [edits])
  | digits esc left right =>
    cases k with
    | esc => exact go_normal (by simpa [tidy] using htidy) hs
    | _ => exact hs
  | wait done next =>
    rw [press]
    split_ifs <;> exact hs
  | idle => exact hs

/-- An editor that is open after a key was open before, or ENTER opened it. -/
theorem press_editor {ed : Editor} (htidy : (editor ed).tidy = true) {k : Key} {s : Lcd}
    (h : ((editor ed).press k s).flagPageState = .modifyState) :
    ((editor ed).press k s).currentScreen = s.currentScreen ∧
      (s.flagPageState = .modifyState ∨ s.flagPageState = .normalState ∧ k = .enter) := by
  simp only [tidy, Bool.and_eq_true, Bool.not_eq_true', beq_iff_eq] at htidy
  obtain ⟨⟨hesc, hcancel⟩, haccept⟩ := htidy
  cases hs : s.flagPageState with
  | normalState =>
    cases k with
    | enter =>
      refine ⟨?_, Or.inr ⟨rfl, rfl⟩⟩
      simp only [press, hs]
      cases ed.start s.rowPoint <;> rfl
    | esc =>
      simp only [press, hs, go_normal hesc hs] at h
      exact absurd h (by decide)
    | up | down | left | right | none => simp [press, hs] at h
  | modifyState =>
    refine ⟨?_, Or.inl rfl⟩
    cases k with
    | left | right =>
      simp only [press, hs]
      cases ed.positions <;> rfl
    | esc | enter | up | down | none => simp [press, hs]

theorem keyPress_normal (e : Env) (k : Key) {s : Lcd} (hscreen : isEditor s.currentScreen = false)
    (hs : s.flagPageState = .normalState) : (keyPress e k s).flagPageState = .normalState := by
  unfold keyPress
  split
  · cases k <;> exact hs
  · cases k <;> exact hs
  · cases k with
    | enter =>
      rw [pressInputPassword]
      split_ifs <;> exact hs
    | _ => exact hs
  · simp only [pressAlarmTypeList]
    split_ifs
    · exact hs
    · cases k <;> exact hs
  · exact press_normal (by rw [handler_edits, hscreen]) (handler_tidy ..) k hs

theorem keyPress_editor (e : Env) (k : Key) {s : Lcd} (hscreen : isEditor s.currentScreen = true) :
    ∃ ed, (editor ed).tidy = true ∧ keyPress e k s = (editor ed).press k s := by
  have hedits := handler_edits e s.userId s.currentScreen
  have htidy := handler_tidy e s.userId s.currentScreen
  rw [hscreen] at hedits
  unfold keyPress
  split
  · rename_i hx
    rw [hx] at hscreen
    exact absurd hscreen (by decide)
  · rename_i hx
    rw [hx] at hscreen
    exact absurd hscreen (by decide)
  · rename_i hx
    rw [hx] at hscreen
    exact absurd hscreen (by decide)
  · rename_i hx
    rw [hx] at hscreen
    exact absurd hscreen (by decide)
  · cases hh : handler e s.userId s.currentScreen with
    | editor ed => exact ⟨ed, hh ▸ htidy, rfl⟩
    | _ => rw [hh] at hedits; exact absurd hedits (by simp [edits])

/-- An editor that is open after a key is the one of the same screen, and was open before or is
    opened by ENTER. -/
theorem keyPress_editing (e : Env) (k : Key) {s : Lcd} (hs : OnEditor s)
    (h : (keyPress e k s).flagPageState = .modifyState) :
    (keyPress e k s).currentScreen = s.currentScreen ∧ isEditor s.currentScreen = true ∧
      (s.flagPageState = .modifyState ∨ s.flagPageState = .normalState ∧ k = .enter) := by
  cases hscreen : isEditor s.currentScreen with
  | true =>
    obtain ⟨ed, htidy, hed⟩ := keyPress_editor e k hscreen
    rw [hed] at h ⊢
    obtain ⟨hsame, hopen⟩ := press_editor htidy h
    exact ⟨hsame, rfl, hopen⟩
  | false =>
    have hnormal : s.flagPageState = .normalState :=
      not_modify_iff.mp fun hm => absurd (hs hm) (by rw [hscreen]; decide)
    rw [keyPress_normal e k hscreen hnormal] at h
    exact absurd h (by decide)

theorem idleTurn_page (e : Env) (k : Key) (s : Lcd) :
    (idleTurn e k s).flagPageState = s.flagPageState := by
  simp only [idleTurn]
  split_ifs <;> rfl

/-- Away from the run screen nothing but the counter of idle turns changes before the key. -/
theorem idleTurn_counts (e : Env) (k : Key) {s : Lcd} (h : s.currentScreen ≠ runScreen) :
    ∃ n, idleTurn e k s = { s with noKeyNum := n } :=
  ⟨_, if_neg fun hidle => h hidle.2.1⟩

/-- Only the run screen and the alarm list are left or entered without a key. -/
theorem idleTurn_screen (e : Env) (k : Key) (s : Lcd) {x : Screen} (hrun : x ≠ runScreen)
    (hlist : x ≠ alarmTypeListScreen) : (idleTurn e k s).currentScreen = x ↔ s.currentScreen = x := by
  rw [idleTurn]
  generalize (if k = .none then if s.noKeyNum < 50 then s.noKeyNum + 1 else s.noKeyNum else 0) = n
  by_cases h : n = 50 ∧ s.currentScreen = runScreen ∧ e.alarmIdle ≠ 0
  · rw [if_pos h, h.2.1]
    exact iff_of_false (fun hx => hlist hx.symm) fun hx => hrun hx.symm
  · rw [if_neg h]

/-- The idle panel goes to the alarm list from the run screen only. -/
theorem idleTurn_editor (e : Env) (k : Key) {s : Lcd} (h : isEditor s.currentScreen = true) :
    (idleTurn e k s).currentScreen = s.currentScreen := by
  have hrun : s.currentScreen ≠ runScreen := by
    intro hx
    rw [hx] at h
    exact absurd h (by decide)
  rw [idleTurn, if_neg fun hidle => hrun hidle.2.1]

theorem OnEditor.idleTurn {s : Lcd} (h : OnEditor s) (e : Env) (k : Key) :
    OnEditor (idleTurn e k s) := by
  intro hm
  rw [idleTurn_page] at hm
  rw [idleTurn_editor e k (h hm)]
  exact h hm

end Lcd

end VectorFence
