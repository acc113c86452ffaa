import VectorFence.Lcd.Commit

/-! ESC in an edit. The zone editors work on copies and the switch-type editor on `SW_Type` itself;
    neither looks after them when an edit is given up:

        zone       value ──ENTER──▶ copy ──UP, DOWN──▶ copy′ ──ESC──▶ copy′ ──ENTER in another row──▶ value
        switches   type ─────────UP, DOWN───────────▶ type′ ──ESC──▶ type′ ──ENTER in another row──▶ EEPROM -/

namespace VectorFence

open Eeprom FieldPara Lcd

namespace Panel

/-! ### Keys in an open editor -/

/-- A key that neither accepts an edit nor gives it up. -/
def Moves : Request → Prop
  | .key _ _ k => k ≠ .enter ∧ k ≠ .esc
  | _ => False

/-- What a key in the row of a switch makes of its type. -/
def moveType (v : Int8) : Request → Int8
  | .key _ _ .up => if v + 1 > 8 then 0 else v + 1
  | .key _ _ .down => if v - 1 < 0 then 8 else v - 1
  | _ => v

/-- The editor of a row is open. -/
structure Editing (x : Screen) (row : UInt8) (p : Panel) : Prop where
  running : p.running
  page : p.lcd.flagPageState = .modifyState
  screen : p.lcd.currentScreen = x
  row : p.lcd.rowPoint = row

variable {x : Screen} {row : UInt8} {p : Panel} {s : Setting}

theorem editBlock_zones : editBlock x = some .zones ↔ x = .setAFangQuParaScreen ∨
    x = .setBFangQuParaScreen := by
  cases x <;> decide

theorem editBlock_switches : editBlock x = some .switches ↔ x = .setExtDeviceTypeScreen := by
  cases x <;> decide

theorem shown_isEditor (h : editBlock x = some .zones ∨ editBlock x = some .switches) :
    isEditor x = true := by
  rw [editBlock_zones, editBlock_switches] at h
  rcases h with (rfl | rfl) | rfl <;> rfl

theorem ne_runScreen (h : isEditor x = true) : x ≠ .runScreen := by
  rintro rfl
  exact absurd h (by decide)

/-- The moves of the cursor leave the editor open. -/
theorem press_moves (ed : Editor) {k : Key} (hk : k ≠ .enter ∧ k ≠ .esc) {l : Lcd}
    (hl : l.flagPageState = .modifyState) :
    ((Handler.editor ed).press k l).flagPageState = .modifyState ∧
      ((Handler.editor ed).press k l).currentScreen = l.currentScreen ∧
      ((Handler.editor ed).press k l).rowPoint = l.rowPoint := by
  cases k with
  | enter => exact absurd rfl hk.1
  | esc => exact absurd rfl hk.2
  | left | right =>
    simp only [Handler.press, hl]
    cases ed.positions with
    | none => exact ⟨hl, rfl, rfl⟩
    | some n => exact ⟨rfl, rfl, rfl⟩
  | up | down | none =>
    simp only [Handler.press, hl]
    exact ⟨trivial, trivial, trivial⟩

/-- The rows of an editor. -/
theorem choice_some {α : Type} {xs : List α} {row : UInt8} {a : α} (h : choice xs row = some a) :
    ∃ n, row.toNat = n + 1 ∧ xs[n]? = some a := by
  rw [choice] at h
  split at h
  · exact absurd h (by simp)
  · exact ⟨_, ‹_›, h⟩

theorem shown_block (h : Setting.shown x row = some s) (hx : editBlock x = some .zones) :
    s.block = .zones := by
  rw [editBlock_zones] at hx
  rcases hx with rfl | rfl
  all_goals
    have hmem := choice_mem h
    simp only [List.mem_cons, List.not_mem_nil, or_false] at hmem
    rcases hmem with rfl | rfl | rfl <;> rfl

/-- The rows of a zone can be opened. -/
theorem startRows_shown (h : Setting.shown x row = some s) (hx : editBlock x = some .zones) :
    startRows 3 row = some { page := some .modifyState, fx := some 1 } := by
  have hrow : 1 ≤ row.toNat ∧ row.toNat ≤ 3 := by
    rw [editBlock_zones] at hx
    rcases hx with rfl | rfl
    all_goals
      obtain ⟨n, hrow, hget⟩ := choice_some h
      have hn : n < 3 := (List.getElem?_eq_some_iff.mp hget).1
      omega
  exact if_pos hrow

theorem shown_switch (h : Setting.shown .setExtDeviceTypeScreen row = some s) :
    row = 1 ∧ s = .swType 0 ∨ row = 2 ∧ s = .swType 1 := by
  obtain ⟨n, hrow, hget⟩ := choice_some h
  have hn : n < 2 := (List.getElem?_eq_some_iff.mp hget).1
  interval_cases n
  · exact Or.inl ⟨UInt8.toNat_inj.mp hrow, (Option.some.inj hget).symm⟩
  · exact Or.inr ⟨UInt8.toNat_inj.mp hrow, (Option.some.inj hget).symm⟩

/-! ### What the keys change -/

/-- A key in the row of a switch changes its type at once. -/
def moved (s : Setting) (st : Station) (r : Request) : Station :=
  match s with
  | .swType i => { st with swType := Function.update st.swType i (moveType (st.swType i) r) }
  | _ => st

theorem zoneEditor_running (f : Zone) (k : Key) (l : Lcd) :
    (p.zoneEditor f k l).running = p.running := by
  unfold zoneEditor
  split
  · rfl
  · simp only [openZonePara]
    split_ifs <;> rfl
  · rfl
  · split_ifs <;> rfl
  · split_ifs <;> rfl
  · rfl

theorem swTypeEditor_running (pins : Fin 2 → Bool) (k : Key) (l : Lcd) :
    (p.swTypeEditor pins k l).running = p.running := by
  unfold swTypeEditor
  split
  · rfl
  · simp only [stepSwType]
    split_ifs <;> rfl
  · simp only [stepSwType]
    split_ifs <;> rfl
  · rfl

/-- On its screen an editor is all there is. -/
theorem effect_zones (e : Env) (pins : Fin 2 → Bool) (k : Key) {l : Lcd}
    (h : editBlock l.currentScreen = some .zones) :
    ∃ f, (p.zoneEffect k l).otherEffect e pins k l = p.zoneEditor f k l := by
  rw [editBlock_zones] at h
  rcases h with hscreen | hscreen
  · exact ⟨0, by simp only [zoneEffect, otherEffect, hscreen]⟩
  · exact ⟨1, by simp only [zoneEffect, otherEffect, hscreen]⟩

theorem effect_switches (e : Env) (pins : Fin 2 → Bool) (k : Key) {l : Lcd}
    (h : l.currentScreen = .setExtDeviceTypeScreen) :
    (p.zoneEffect k l).otherEffect e pins k l = p.swTypeEditor pins k l := by
  simp only [zoneEffect, otherEffect, h]

/-- The type of a switch follows the keys in its row. -/
theorem swTypeEditor_moved {e : Env} {pins : Fin 2 → Bool} {k : Key} {l : Lcd} (hk : k ≠ .enter)
    (hpage : l.flagPageState = .modifyState)
    (hs : Setting.shown .setExtDeviceTypeScreen l.rowPoint = some s) :
    (p.swTypeEditor pins k l).station = moved s p.station (.key e pins k) := by
  have hsame (i : Fin 2) : moved (.swType i) p.station (.key e pins .none) = p.station := by
    simp only [moved, moveType, Function.update_eq_self]
  rcases shown_switch hs with ⟨hrow, rfl⟩ | ⟨hrow, rfl⟩
  · cases k with
    | enter => exact absurd rfl hk
    | up | down =>
        simp only [swTypeEditor, hpage, stepSwType, hrow, if_true, setSwType, moved, moveType]
    | esc | left | right | none =>
      simp only [swTypeEditor, hpage]
      exact (hsame 0).symm
  · have hne : ¬(2 : UInt8) = 1 := by decide
    cases k with
    | enter => exact absurd rfl hk
    | up | down =>
      simp only [swTypeEditor, hpage, stepSwType, hrow, if_true, if_neg hne, setSwType, moved, moveType]
    | esc | left | right | none =>
      simp only [swTypeEditor, hpage]
      exact (hsame 1).symm

/-! ### An edit from ENTER to ESC -/

/-- An open editor after a key: the zone editors change nothing of the station but by ENTER. -/
theorem editor_station (e : Env) (pins : Fin 2 → Bool) {k : Key} {l : Lcd} (hk : k ≠ .enter)
    (hpage : l.flagPageState = .modifyState)
    (hx : editBlock l.currentScreen = some .zones ∨ editBlock l.currentScreen = some .switches)
    (hs : Setting.shown l.currentScreen l.rowPoint = some s) :
    ((p.zoneEffect k l).otherEffect e pins k l).station = moved s p.station (.key e pins k) ∧
      ((p.zoneEffect k l).otherEffect e pins k l).running = p.running := by
  rcases hx with hx | hx
  · obtain ⟨f, heffect⟩ := p.effect_zones e pins k hx
    have hblock := shown_block hs hx
    rw [heffect, zoneEditor_station fun h => hk h.1, zoneEditor_running]
    refine ⟨?_, rfl⟩
    cases s with
    | swType i => exact absurd hblock (by simp [Setting.block])
    | _ => rfl
  · rw [editBlock_switches] at hx
    rw [hx] at hs
    rw [p.effect_switches e pins k hx, swTypeEditor_running]
    exact ⟨swTypeEditor_moved hk hpage hs, rfl⟩

theorem Editing.moves (h : Editing x row p)
    (hx : editBlock x = some .zones ∨ editBlock x = some .switches) (hs : Setting.shown x row = some s)
    {r : Request} (hr : Moves r) :
    Editing x row (p.step r) ∧ (p.step r).station = moved s p.station r := by
  cases r with
  | tcp recvbuf => exact absurd hr id
  | web params => exact absurd hr id
  | key e pins k =>
    obtain ⟨hrun, hpage, rfl, rfl⟩ := h
    have hed := shown_isEditor hx
    obtain ⟨n, hidle⟩ := idleTurn_counts e k (ne_runScreen hed)
    obtain ⟨ed, -, hpress⟩ := keyPress_editor e k (s := { p.lcd with noKeyNum := n }) hed
    obtain ⟨hpage', hscreen', hrow'⟩ := press_moves ed hr (l := { p.lcd with noKeyNum := n }) hpage
    obtain ⟨hst, hrun'⟩ := editor_station (p := p) e pins (l := { p.lcd with noKeyNum := n })
      hr.1 hpage hx hs
    have hstep : p.step (.key e pins k) = p.turn e pins k := if_pos hrun
    rw [hstep, turn, hidle, hpress]
    exact ⟨⟨hrun'.trans hrun, hpage', hscreen', hrow'⟩, hst⟩

/-- ENTER opens a row that shows a parameter. -/
theorem keyPress_opens (e : Env) {l : Lcd} (hpage : l.flagPageState = .normalState)
    (hx : editBlock l.currentScreen = some .zones ∨ editBlock l.currentScreen = some .switches)
    (hs : Setting.shown l.currentScreen l.rowPoint = some s) :
    (keyPress e .enter l).flagPageState = .modifyState ∧
      (keyPress e .enter l).currentScreen = l.currentScreen ∧
      (keyPress e .enter l).rowPoint = l.rowPoint := by
  rcases hx with hx | hx
  · have hstart := startRows_shown hs hx
    rw [editBlock_zones] at hx
    rcases hx with hscreen | hscreen
    · simp only [keyPress, hscreen, handler, Handler.press, hpage, hstart, Option.elim_some]
      exact ⟨rfl, hscreen, rfl⟩
    · simp only [keyPress, hscreen, handler, Handler.press, hpage, hstart, Option.elim_some]
      exact ⟨rfl, hscreen, rfl⟩
  · rw [editBlock_switches] at hx
    rw [hx] at hs
    have hrow : l.rowPoint = 1 ∨ l.rowPoint = 2 := (shown_switch hs).imp And.left And.left
    simp only [keyPress, hx, handler, Handler.press, hpage, if_pos hrow, Option.elim_some]
    exact ⟨rfl, hx, rfl⟩

/-- Opening changes nothing of the station. -/
theorem editing_opened (e : Env) (pins : Fin 2 → Bool) (hrun : p.running)
    (hpage : p.lcd.flagPageState = .normalState)
    (hx : editBlock p.lcd.currentScreen = some .zones ∨ editBlock p.lcd.currentScreen = some .switches)
    (hs : Setting.shown p.lcd.currentScreen p.lcd.rowPoint = some s) :
    Editing p.lcd.currentScreen p.lcd.rowPoint (p.step (.key e pins .enter)) ∧
      (p.step (.key e pins .enter)).station = p.station := by
  obtain ⟨hpage', hscreen', hrow'⟩ := keyPress_opens e (l := { p.lcd with noKeyNum := 0 }) hpage hx hs
  have hstep : p.step (.key e pins .enter) = p.turn e pins .enter := if_pos hrun
  rw [hstep, turn, idleTurn_enter]
  rcases hx with hx | hx
  · obtain ⟨f, heffect⟩ := p.effect_zones e pins .enter (l := { p.lcd with noKeyNum := 0 }) hx
    rw [heffect]
    exact ⟨⟨(zoneEditor_running ..).trans hrun, hpage', hscreen', hrow'⟩,
      zoneEditor_station fun h => absurd (hpage.symm.trans h.2) (by decide)⟩
  · rw [editBlock_switches] at hx
    rw [p.effect_switches e pins .enter (l := { p.lcd with noKeyNum := 0 }) hx]
    have hsame : p.swTypeEditor pins .enter { p.lcd with noKeyNum := 0 } = p := by
      simp only [swTypeEditor, hpage]
    rw [hsame]
    exact ⟨⟨hrun, hpage', hscreen', hrow'⟩, rfl⟩

/-- ESC changes nothing of it. -/
theorem Editing.escape (h : Editing x row p)
    (hx : editBlock x = some .zones ∨ editBlock x = some .switches) (hs : Setting.shown x row = some s)
    (e : Env) (pins : Fin 2 → Bool) : (p.step (.key e pins .esc)).station = p.station := by
  obtain ⟨hrun, hpage, rfl, rfl⟩ := h
  obtain ⟨n, hidle⟩ := idleTurn_counts e .esc (ne_runScreen (shown_isEditor hx))
  have hmoved : moved s p.station (.key e pins .esc) = p.station := by
    cases s with
    | swType i => simp only [moved, moveType, Function.update_eq_self]
    | _ => rfl
  have hstep : p.step (.key e pins .esc) = p.turn e pins .esc := if_pos hrun
  rw [hstep, turn, hidle]
  exact (editor_station _ _ (l := { p.lcd with noKeyNum := n }) (by decide) hpage hx hs).1.trans hmoved

theorem Editing.foldl (hx : editBlock x = some .zones ∨ editBlock x = some .switches)
    (hs : Setting.shown x row = some s) {rs : List Request} (hrs : ∀ r ∈ rs, Moves r)
    (h : Editing x row p) :
    Editing x row (rs.foldl step p) ∧ (rs.foldl step p).station = rs.foldl (moved s) p.station := by
  induction rs generalizing p with
  | nil => exact ⟨h, rfl⟩
  | cons r rs ih =>
    rw [List.forall_mem_cons] at hrs
    obtain ⟨hopen, hst⟩ := h.moves hx hs hrs.1
    rw [List.foldl_cons, List.foldl_cons, ← hst]
    exact ih hrs.2 hopen

/-- An edit that is given up: ENTER in a row, keys in it, ESC. -/
structure Abandoned where
  panel : Panel
  setting : Setting
  enter : Env × (Fin 2 → Bool)
  moves : List Request
  esc : Env × (Fin 2 → Bool)
  running : panel.running
  page : panel.lcd.flagPageState = .normalState
  block : editBlock panel.lcd.currentScreen = some .zones ∨
    editBlock panel.lcd.currentScreen = some .switches
  shown : Setting.shown panel.lcd.currentScreen panel.lcd.rowPoint = some setting
  moves_ok : ∀ r ∈ moves, Moves r

namespace Abandoned

variable (x : Abandoned)

/-- Before ESC. -/
def edited : Panel := x.moves.foldl step (x.panel.step (.key x.enter.1 x.enter.2 .enter))

def after : Panel := x.edited.step (.key x.esc.1 x.esc.2 .esc)

/-- The value that was given up. -/
def value : ℕ :=
  if x.setting.block = .zones then x.edited.put x.setting else x.edited.station.value x.setting

/-- The keys lead back to the type that the switch had; a zone editor has nothing to bring back. -/
def Returns : Prop :=
  match x.setting with
  | .swType i => x.moves.foldl moveType (x.panel.station.swType i) = x.panel.station.swType i
  | _ => True

theorem setting_block : x.setting.block = .zones ∨ ∃ i, x.setting = .swType i := by
  rcases x.block with hx | hx
  · exact Or.inl (shown_block x.shown hx)
  · have hs := x.shown
    rw [editBlock_switches] at hx
    rw [hx] at hs
    exact Or.inr ((shown_switch hs).elim (fun h => ⟨0, h.2⟩) fun h => ⟨1, h.2⟩)

/-- The station after the edit is what the moves make of it. -/
theorem after_station : x.after.station = x.moves.foldl (moved x.setting) x.panel.station := by
  obtain ⟨hopen, hst⟩ := editing_opened x.enter.1 x.enter.2 x.running x.page x.block x.shown
  obtain ⟨hopen', hst'⟩ := Editing.foldl x.block x.shown x.moves_ok hopen
  rw [after, edited, hopen'.escape x.block x.shown, hst', hst]

theorem foldl_moved (i : Fin 2) (rs : List Request) (st : Station) : rs.foldl (moved (.swType i)) st =
    { st with swType := Function.update st.swType i (rs.foldl moveType (st.swType i)) } := by
  induction rs generalizing st with
  | nil => simp only [List.foldl_nil, Function.update_eq_self]
  | cons r rs ih =>
    rw [List.foldl_cons, ih, List.foldl_cons]
    simp only [moved, Function.update_self, Function.update_idem]

theorem foldl_moved_zones {s : Setting} (hs : s.block = .zones) (rs : List Request) (st : Station) :
    rs.foldl (moved s) st = st := by
  refine List.foldl_fixed' (fun r => ?_) rs
  cases s with
  | swType i => exact absurd hs (by simp [Setting.block])
  | _ => rfl

theorem toUInt8_inj {a b : Int8} (h : a.toUInt8 = b.toUInt8) : a = b :=
  Int8.toBitVec_inj.mp (congrArg UInt8.toBitVec h)

/-- Everything is as it was where the moves return. -/
theorem restored_iff : (∀ s, x.after.station.value s = x.panel.station.value s ∧
    x.after.mem.stored s = x.panel.mem.stored s) ↔ x.Returns := by
  rw [mem, mem, x.after_station]
  rcases x.setting_block with hs | ⟨i, hs⟩
  · rw [foldl_moved_zones hs]
    refine iff_of_true (fun _ => ⟨rfl, rfl⟩) ?_
    unfold Returns
    split
    · rename_i h
      exact absurd (h ▸ hs) (by simp [Setting.block])
    · trivial
  · rw [hs, foldl_moved]
    simp only [Returns, hs]
    constructor
    · intro h
      have hval : (Function.update x.panel.station.swType i
          (x.moves.foldl moveType (x.panel.station.swType i)) i).toUInt8.toNat =
          (x.panel.station.swType i).toUInt8.toNat := (h (.swType i)).1
      rw [Function.update_self] at hval
      exact toUInt8_inj (UInt8.toNat_inj.mp hval)
    · intro h s
      rw [h, Function.update_eq_self]
      exact ⟨rfl, trivial⟩

/-- The value comes back in RAM or in the EEPROM. -/
def Resurfaces (x : Abandoned) (p p' : Panel) : Prop :=
  (p.station.value x.setting ≠ x.value ∧ p'.station.value x.setting = x.value) ∨
    (p.mem.stored x.setting ≠ x.value ∧ p'.mem.stored x.setting = x.value)

/-- ENTER at the end of an edit in another row. -/
def Elsewhere (x : Abandoned) (b : Block) (p : Panel) (r : Request) : Prop :=
  p.Confirms b r ∧ Setting.shown p.lcd.currentScreen p.lcd.rowPoint ≠ some x.setting

/-- ESC restores everything, and no ENTER in another row stores what was given up. -/
def Cancels (x : Abandoned) (rs : List Request) : Prop :=
  (∀ s, x.after.station.value s = x.panel.station.value s ∧
    x.after.mem.stored s = x.panel.mem.stored s) ∧
  ∀ q ∈ Run.steps step x.after rs, ∀ b, x.Elsewhere b q.1 q.2 → ¬x.Resurfaces q.1 (q.1.step q.2)

/-- Where the editor would put the value in place again it is in force. -/
def Forgotten (x : Abandoned) (rs : List Request) : Prop :=
  ∀ q ∈ Run.steps step x.after rs, ∀ b, x.Elsewhere b q.1 q.2 → x.setting.block = b →
    q.1.put x.setting = x.value → q.1.station.value x.setting = x.value ∧
    q.1.mem.stored x.setting = x.value

theorem resurfaces_iff {b : Block} {p : Panel} {r : Request} (h : x.Elsewhere b p r) :
    ¬x.Resurfaces p (p.step r) ↔ (x.setting.block = b → p.put x.setting = x.value →
      p.station.value x.setting = x.value ∧ p.mem.stored x.setting = x.value) := by
  obtain ⟨hval, hstored⟩ := step_puts h.1
  rw [Resurfaces]
  by_cases hs : x.setting.block = b
  · have hw : p.Writes b := by
      intro hb
      rcases x.setting_block with hz | ⟨i, hi⟩
      · exact absurd (hz.symm.trans (hs.trans hb)) (by decide)
      · exact absurd ((hi ▸ hs : Setting.block (.swType i) = b).trans hb) (by simp [Setting.block])
    rw [hval, if_pos hs, (hstored _).1 hs hw, imp_iff_right hs]
    tauto
  · rw [hval, if_neg hs, (hstored _).2 fun h => hs h.1]
    exact iff_of_true (by tauto) fun h => absurd h hs

/-- An edit is cancelled exactly when the type of a switch is brought back by hand, and nothing that
    was given up is put in place with another row. -/
theorem cancels_iff (rs : List Request) : x.Cancels rs ↔ x.Returns ∧ x.Forgotten rs := by
  refine and_congr x.restored_iff (forall₂_congr fun q _ => forall_congr' fun b => ?_)
  exact forall_congr' fun h => x.resurfaces_iff h

/-- The parameters of zone A, in the row of its number. -/
def zoneShown : Panel := (keys (toSettings ++ [.down, .enter, .enter])).foldl step firstStart

theorem zoneShown_eq : zoneShown.running = true ∧ zoneShown.lcd.flagPageState = .normalState ∧
    zoneShown.lcd.currentScreen = .setAFangQuParaScreen ∧ zoneShown.lcd.rowPoint = 1 := by
  decide +kernel

/-- The number of zone A is set to 1 and given up. -/
def numberUp : Abandoned where
  panel := zoneShown
  setting := .fieldNum 0
  enter := (quiet, fun _ => false)
  moves := keys [.up]
  esc := (quiet, fun _ => false)
  running := zoneShown_eq.1
  page := zoneShown_eq.2.1
  block := by rw [zoneShown_eq.2.2.1]; exact Or.inl rfl
  shown := by rw [zoneShown_eq.2.2.1, zoneShown_eq.2.2.2]; rfl
  moves_ok := by simp [keys, Moves]

/-- The delay is opened behind it. -/
def delayOpened : Panel := (keys [.down, .enter]).foldl step numberUp.after

theorem delayOpened_eq : delayOpened.running = true ∧ delayOpened.lcd.flagPageState = .modifyState ∧
    delayOpened.lcd.currentScreen = .setAFangQuParaScreen ∧ delayOpened.lcd.rowPoint = 2 ∧
    delayOpened.put (.fieldNum 0) = 1 ∧ delayOpened.station.value
    (.fieldNum 0) = 0 ∧ numberUp.value = 1 := by
  decide +kernel

/-- ENTER stores it. -/
theorem not_cancels : ¬ ∀ (x : Abandoned) (rs : List Request), x.Cancels rs := by
  intro h
  obtain ⟨hrun, hpage, hscreen, hrow, hput, hval, hgiven⟩ := delayOpened_eq
  have hforgotten := ((cancels_iff numberUp _).mp
    (h numberUp (keys [.down, .enter] ++ keys [.enter]))).2
  have hval' := (hforgotten (delayOpened, .key quiet (fun _ => false) .enter)
    (by rw [Run.steps_append]; exact List.mem_append_right _ (List.mem_singleton_self _)) .zones
    ⟨⟨hrun, rfl, hpage, by rw [hscreen]; rfl⟩, by rw [hscreen, hrow]; decide⟩ rfl
    (hput.trans hgiven.symm)).1
  exact absurd ((hval.symm.trans hval').trans hgiven) (by decide)

end Abandoned

end Panel

end VectorFence
