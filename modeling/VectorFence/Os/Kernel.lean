import VectorFence.Lib.Bitmap
import VectorFence.Lib.Run
import VectorFence.Os.Queues

/-! The kernel below the tasks: µC/OS-II with its ready list, its queues and mailboxes and its
    clock. A task is its priority; `OS_LOWEST_PRIO` is 63, and the idle task has it. Whatever is
    done with interrupts disabled is one step.

        ready ──OSQPend──▶ waiting ──OSQPost──▶ ready, message in the TCB ──▶ OSQPend returns it
                              └──OSTimeTick──▶ ready, timed out ──OSQPost──▶ ready, message in the TCB
                                                      └──▶ OSQPend returns NULL

    `OSTCBEventPtr` is set as long as the task is inside of `OSQPend` or `OSMboxPend`. -/

namespace VectorFence

/-- The numbers of the lowest bits. -/
def osUnMapTbl : List ℕ := [
    0, 0, 1, 0, 2, 0, 1, 0, 3, 0, 1, 0, 2, 0, 1, 0,
    4, 0, 1, 0, 2, 0, 1, 0, 3, 0, 1, 0, 2, 0, 1, 0,
    5, 0, 1, 0, 2, 0, 1, 0, 3, 0, 1, 0, 2, 0, 1, 0,
    4, 0, 1, 0, 2, 0, 1, 0, 3, 0, 1, 0, 2, 0, 1, 0,
    6, 0, 1, 0, 2, 0, 1, 0, 3, 0, 1, 0, 2, 0, 1, 0,
    4, 0, 1, 0, 2, 0, 1, 0, 3, 0, 1, 0, 2, 0, 1, 0,
    5, 0, 1, 0, 2, 0, 1, 0, 3, 0, 1, 0, 2, 0, 1, 0,
    4, 0, 1, 0, 2, 0, 1, 0, 3, 0, 1, 0, 2, 0, 1, 0,
    7, 0, 1, 0, 2, 0, 1, 0, 3, 0, 1, 0, 2, 0, 1, 0,
    4, 0, 1, 0, 2, 0, 1, 0, 3, 0, 1, 0, 2, 0, 1, 0,
    5, 0, 1, 0, 2, 0, 1, 0, 3, 0, 1, 0, 2, 0, 1, 0,
    4, 0, 1, 0, 2, 0, 1, 0, 3, 0, 1, 0, 2, 0, 1, 0,
    6, 0, 1, 0, 2, 0, 1, 0, 3, 0, 1, 0, 2, 0, 1, 0,
    4, 0, 1, 0, 2, 0, 1, 0, 3, 0, 1, 0, 2, 0, 1, 0,
    5, 0, 1, 0, 2, 0, 1, 0, 3, 0, 1, 0, 2, 0, 1, 0,
    4, 0, 1, 0, 2, 0, 1, 0, 3, 0, 1, 0, 2, 0, 1, 0]

def unMap (b : UInt8) : ℕ := osUnMapTbl.getD b.toNat 0

theorem unMap_lowest : Bitmap.Lowest unMap := by
  have h : ∀ n : Fin 256, (n : ℕ) ≠ 0 → unMap (UInt8.ofNat n) < 8 ∧
      Bitmap.bit (UInt8.ofNat n) (unMap (UInt8.ofNat n)) = true ∧
      ∀ k < unMap (UInt8.ofNat n), Bitmap.bit (UInt8.ofNat n) k = false := by decide +kernel
  intro b hb
  have hb' := h ⟨b.toNat, b.toNat_lt⟩ fun hzero => hb (UInt8.toNat_inj.mp hzero)
  simpa using hb'

/-- What the kernel knows of a task: `OSTCBStat` (it pends), whether `OSTCBStatPend` is
    `OS_STAT_PEND_TO`, `OSTCBDly`, `OSTCBMsg` and `OSTCBEventPtr`. -/
structure Tcb where
  pend : Bool
  timedOut : Bool
  dly : ℕ
  msg : ℕ
  event : Option ℕ

/-- The message in the TCB of a task that is still inside of its pend, with its event. -/
def Tcb.held (c : Tcb) : List (ℕ × ℕ) :=
  match c.event with
  | none => []
  | some e => if c.pend || c.timedOut then [] else [(e, c.msg)]

/-- A queue or mailbox with its wait list. -/
structure Ecb where
  wait : Bitmap
  ptr : OsEventPtr

/-- `OSRdyGrp` and `OSRdyTbl`, the tasks, the events, `OSPrioCur`, `OSLockNesting` and `OSTCBList`
    before the idle task. -/
structure Os where
  rdy : Bitmap
  tcb : ℕ → Tcb
  ecb : ℕ → Ecb
  cur : ℕ
  lock : ℕ
  tasks : List ℕ

/-- What a post does: `OS_ERR_Q_FULL` or `OS_ERR_MBOX_FULL`, the message is put away, or given to a
    task. -/
inductive PostRes where
  | full
  | queued
  | gave (prio : ℕ)

/-- What the first part of a pend does. -/
inductive PendRes where
  | locked
  | msg (pmsg : ℕ)
  | waits

namespace Os

def idlePrio : ℕ := 63

/-- `OS_SchedNew`. -/
def schedNew (s : Os) : ℕ := s.rdy.least unMap

/-- `OS_Sched`, and the end of `OSIntExit`. -/
def sched (s : Os) : Os := if s.lock = 0 then { s with cur := s.schedNew } else s

/-- `OS_EventTaskRdy`. -/
def eventTaskRdy (s : Os) (e pmsg : ℕ) : ℕ × Os :=
  let prio := (s.ecb e).wait.least unMap
  (prio, { s with
    tcb := Function.update s.tcb prio
      { s.tcb prio with dly := 0, msg := pmsg, pend := false, timedOut := false }
    rdy := s.rdy.insert prio
    ecb := Function.update s.ecb e { s.ecb e with wait := (s.ecb e).wait.remove prio } })

/-- `OSQPost` and `OSMboxPost`, of a task or an interrupt. -/
def post (s : Os) (e pmsg : ℕ) : PostRes × Os :=
  if (s.ecb e).wait.grp ≠ 0 then
    let r := s.eventTaskRdy e pmsg
    (.gave r.1, r.2.sched)
  else
    match (s.ecb e).ptr.put pmsg with
    | none => (.full, s)
    | some ptr => (.queued, { s with ecb := Function.update s.ecb e { s.ecb e with ptr := ptr } })

/-- The current task waits; `OS_EventTaskWait`. -/
def wait (s : Os) (e timeout : ℕ) : Os :=
  { s with
    tcb := Function.update s.tcb s.cur
      { s.tcb s.cur with pend := true, timedOut := false, dly := timeout, event := some e }
    ecb := Function.update s.ecb e { s.ecb e with wait := (s.ecb e).wait.insert s.cur }
    rdy := s.rdy.remove s.cur }

/-- `OSQPend` and `OSMboxPend` up to `OS_Sched`. -/
def pend (s : Os) (e timeout : ℕ) : PendRes × Os :=
  if s.lock > 0 then (.locked, s)
  else
    match (s.ecb e).ptr.get with
    | some r => (.msg r.1, { s with ecb := Function.update s.ecb e { s.ecb e with ptr := r.2 } })
    | none => (.waits, (s.wait e timeout).sched)

/-- The rest of it, when the task runs again: the message, or none after the time. -/
def pendEnd (s : Os) (e : ℕ) : Option ℕ × Os :=
  let c := s.tcb s.cur
  let tcb := Function.update s.tcb s.cur
    { c with pend := false, timedOut := false, event := none, msg := 0 }
  if c.timedOut then
    (none, { s with
      tcb := tcb
      ecb := Function.update s.ecb e { s.ecb e with wait := (s.ecb e).wait.remove s.cur } })
  else (some c.msg, { s with tcb := tcb })

/-- `OSTimeDly`. -/
def timeDly (s : Os) (ticks : ℕ) : Os :=
  if s.lock > 0 then s
  else if ticks > 0 then
    sched { s with
      rdy := s.rdy.remove s.cur
      tcb := Function.update s.tcb s.cur { s.tcb s.cur with dly := ticks } }
  else s

/-- A round of `OSTimeTick`. -/
def tickTask (s : Os) (t : ℕ) : Os :=
  let c := s.tcb t
  if c.dly ≠ 0 then
    if c.dly - 1 = 0 then
      { s with
        tcb := Function.update s.tcb t { c with dly := 0, pend := false, timedOut := c.pend }
        rdy := s.rdy.insert t }
    else { s with tcb := Function.update s.tcb t { c with dly := c.dly - 1 } }
  else s

/-- `SysTick_Handler`. -/
def timeTick (s : Os) : Os := (s.tasks.foldl tickTask s).sched

def schedLock (s : Os) : Os := if s.lock < 255 then { s with lock := s.lock + 1 } else s

def schedUnlock (s : Os) : Os := if s.lock > 0 then sched { s with lock := s.lock - 1 } else s

/-! ### What holds between the steps -/

/-- What the lists say of a task. -/
structure At (s : Os) (t : ℕ) : Prop where
  rdy_iff : s.rdy.Mem t ↔ t = idlePrio ∨ (t ∈ s.tasks ∧ (s.tcb t).pend = false ∧ (s.tcb t).dly = 0)
  wait_iff : ∀ e, (s.ecb e).wait.Mem t ↔
    t ∈ s.tasks ∧ (s.tcb t).event = some e ∧ ((s.tcb t).pend = true ∨ (s.tcb t).timedOut = true)
  inside : (s.tcb t).event ≠ none → t ∈ s.tasks
  outside : (s.tcb t).event = none → (s.tcb t).pend = false ∧ (s.tcb t).timedOut = false
  timedOut : (s.tcb t).timedOut = true → (s.tcb t).pend = false ∧ (s.tcb t).dly = 0

/-- Everything but the current task. -/
structure Ok (s : Os) : Prop where
  tasks_lt : ∀ t ∈ s.tasks, t < idlePrio
  rdy_wf : s.rdy.Wf
  wait_wf : ∀ e, (s.ecb e).wait.Wf
  task : ∀ t < 64, s.At t
  empty : ∀ e, (s.ecb e).ptr.messages ≠ [] → (s.ecb e).wait.grp = 0

/-- The current task is ready, and while the scheduler is not locked nobody ready is before it. -/
structure Inv (s : Os) : Prop where
  ok : s.Ok
  cur_lt : s.cur < 64
  cur_rdy : s.rdy.Mem s.cur
  least : s.lock = 0 → ∀ t < 64, s.rdy.Mem t → s.cur ≤ t

/-- The messages in a queue or mailbox. -/
def inside (s : Os) (e : ℕ) : List ℕ := (s.ecb e).ptr.messages

def held (s : Os) (t : ℕ) : List (ℕ × ℕ) := (s.tcb t).held

variable {s s' : Os} {e t pmsg : ℕ}

@[simp]
theorem tcb_sched (s : Os) : s.sched.tcb = s.tcb := by rw [Os.sched]; split_ifs <;> rfl

@[simp]
theorem ecb_sched (s : Os) : s.sched.ecb = s.ecb := by rw [Os.sched]; split_ifs <;> rfl

@[simp]
theorem tasks_sched (s : Os) : s.sched.tasks = s.tasks := by rw [Os.sched]; split_ifs <;> rfl

/-- A task stands in no wait list but that of its event. -/
theorem At.not_mem (h : s.At t) (hevent : (s.tcb t).event ≠ some e) : ¬(s.ecb e).wait.Mem t :=
  fun hmem => hevent ((h.wait_iff e).mp hmem).2.1

theorem At.timedOut_of_dly (h : s.At t) (hdly : (s.tcb t).dly ≠ 0) : (s.tcb t).timedOut = false :=
  Bool.eq_false_of_not_eq_true fun hto => hdly (h.timedOut hto).2

theorem Ok.run (h : s.Ok) (cur lock : ℕ) : Ok { s with cur := cur, lock := lock } :=
  ⟨h.tasks_lt, h.rdy_wf, h.wait_wf,
    fun t ht => ⟨(h.task t ht).rdy_iff, (h.task t ht).wait_iff, (h.task t ht).inside,
    (h.task t ht).outside, (h.task t ht).timedOut⟩, h.empty⟩

theorem Ok.sched (h : s.Ok) (hcur : s.lock ≠ 0 → s.cur < 64 ∧ s.rdy.Mem s.cur) : s.sched.Inv := by
  rw [Os.sched]
  split_ifs with hlock
  · have hgrp : s.rdy.grp ≠ 0 := h.rdy_wf.grp_ne_zero_iff.mpr
      ⟨idlePrio, by decide, (h.task idlePrio (by decide)).rdy_iff.mpr (.inl rfl)⟩
    obtain ⟨hlt, hmem, hleast⟩ := h.rdy_wf.least unMap_lowest hgrp
    exact ⟨h.run _ s.lock, hlt, hmem, fun _ => hleast⟩
  · exact ⟨h, (hcur hlock).1, (hcur hlock).2, fun hzero => absurd hzero hlock⟩

/-- A step that concerns one task. -/
structure Changes (s s' : Os) (t : ℕ) : Prop where
  tasks : s'.tasks = s.tasks
  tcb : ∀ t' ≠ t, s'.tcb t' = s.tcb t'
  rdy : ∀ t' ≠ t, s'.rdy.Mem t' ↔ s.rdy.Mem t'
  wait : ∀ e, ∀ t' ≠ t, (s'.ecb e).wait.Mem t' ↔ (s.ecb e).wait.Mem t'

theorem Ok.change (h : s.Ok) (hchanges : Changes s s' t) (hat : s'.At t) (hrdy : s'.rdy.Wf)
    (hwait : ∀ e, (s'.ecb e).wait.Wf)
    (hempty : ∀ e, (s'.ecb e).ptr.messages ≠ [] → (s'.ecb e).wait.grp = 0) : s'.Ok := by
  refine ⟨hchanges.tasks ▸ h.tasks_lt, hrdy, hwait, fun t' ht' => ?_, hempty⟩
  rcases eq_or_ne t' t with rfl | hne
  · exact hat
  · obtain ⟨hr, hw, hi, ho, hto⟩ := h.task t' ht'
    refine ⟨?_, fun e => ?_, ?_, ?_, ?_⟩
    · rw [hchanges.rdy t' hne, hchanges.tcb t' hne, hchanges.tasks, hr]
    · rw [hchanges.wait e t' hne, hchanges.tcb t' hne, hchanges.tasks, hw]
    · rwa [hchanges.tcb t' hne, hchanges.tasks]
    · rwa [hchanges.tcb t' hne]
    · rwa [hchanges.tcb t' hne]

/-- A step that concerns one task and the wait list of one event. -/
theorem Ok.changeWait {w : Bitmap} (h : s.Ok)
    (hecb : s'.ecb = Function.update s.ecb e { s.ecb e with wait := w })
    (htasks : s'.tasks = s.tasks) (htcb : ∀ t' ≠ t, s'.tcb t' = s.tcb t')
    (hrdy : ∀ t' ≠ t, s'.rdy.Mem t' ↔ s.rdy.Mem t')
    (hwait : ∀ t' ≠ t, w.Mem t' ↔ (s.ecb e).wait.Mem t') (hat : s'.At t) (hrdy_wf : s'.rdy.Wf)
    (hwait_wf : w.Wf)
    (hempty : (s.ecb e).ptr.messages ≠ [] → w.grp = 0) : s'.Ok := by
  refine h.change ⟨htasks, htcb, hrdy, fun e' t' hne => ?_⟩ hat hrdy_wf ?_ ?_
  · rw [hecb]
    exact (Function.forall_update_iff s.ecb fun e' c => (c.wait.Mem t' ↔ (s.ecb e').wait.Mem t')).mpr
      ⟨hwait t' hne, fun _ _ => Iff.rfl⟩ e'
  · rw [hecb]
    exact (Function.forall_update_iff s.ecb fun _ c => c.wait.Wf).mpr ⟨hwait_wf,
      fun e' _ => h.wait_wf e'⟩
  · rw [hecb]
    exact (Function.forall_update_iff s.ecb fun _ c => c.ptr.messages ≠ [] → c.wait.grp = 0).mpr
      ⟨hempty, fun e' _ => h.empty e'⟩

/-- A task that waits for `e` is found with two looks into the table. -/
theorem Ok.waiting (h : s.Ok) (hgrp : (s.ecb e).wait.grp ≠ 0) :
    let t := (s.ecb e).wait.least unMap
    t < 64 ∧ t ∈ s.tasks ∧ (s.tcb t).event = some e ∧
    ((s.tcb t).pend = true ∨ (s.tcb t).timedOut = true) ∧
      ∀ t' < 64, (s.ecb e).wait.Mem t' → t ≤ t' := by
  obtain ⟨hlt, hmem, hleast⟩ := (h.wait_wf e).least unMap_lowest hgrp
  obtain ⟨htask, hevent, hstat⟩ := ((h.task _ hlt).wait_iff e).mp hmem
  exact ⟨hlt, htask, hevent, hstat, hleast⟩

theorem Ok.eventTaskRdy (h : s.Ok) (hgrp : (s.ecb e).wait.grp ≠ 0) (pmsg : ℕ) :
    (s.eventTaskRdy e pmsg).2.Ok := by
  obtain ⟨hlt, htask, hevent, -, -⟩ := h.waiting hgrp
  rw [Os.eventTaskRdy]
  set t := (s.ecb e).wait.least unMap
  refine h.changeWait (t := t) rfl rfl (fun t' hne => Function.update_of_ne hne ..) (fun t' hne =>
    ?_) (fun t' hne => ?_)
    ⟨?_, fun e' => ?_, fun _ => htask, ?_, ?_⟩ (h.rdy_wf.insert hlt) ((h.wait_wf e).remove hlt)
    fun hmessages => absurd (h.empty e hmessages) hgrp
  · exact (Bitmap.mem_insert ..).trans (or_iff_right hne)
  · exact (Bitmap.mem_remove ..).trans (and_iff_right hne)
  · refine iff_of_true ((Bitmap.mem_insert ..).mpr (.inl rfl)) (.inr ⟨htask, ?_⟩)
    simp
  · refine iff_of_false ?_ (by simp)
    rcases eq_or_ne e' e with rfl | he
    · simp [Bitmap.mem_remove]
    · simp only [Function.update_of_ne he]
      exact (h.task t hlt).not_mem (by simp [hevent, he.symm])
  · simp
  · simp

theorem Inv.setPtr {ptr : OsEventPtr} (h : s.Inv)
    (hempty : ptr.messages ≠ [] → (s.ecb e).wait.grp = 0) :
    Inv { s with ecb := Function.update s.ecb e { s.ecb e with ptr := ptr } } := by
  have hwait : ∀ e', (Function.update s.ecb e { s.ecb e with ptr := ptr } e').wait = (s.ecb e').wait :=
    (Function.forall_update_iff s.ecb fun e' c => c.wait = (s.ecb e').wait).mpr ⟨rfl, fun _ _ => rfl⟩
  obtain ⟨htasks, hrdy, hwf, htask, hnone⟩ := h.ok
  refine ⟨⟨htasks, hrdy, fun e' => hwait e' ▸ hwf e', fun t ht => ?_, ?_⟩, h.cur_lt, h.cur_rdy, h.least⟩
  · obtain ⟨hr, hw, hi, ho, hto⟩ := htask t ht
    exact ⟨hr, fun e' => (hwait e').symm ▸ hw e', hi, ho, hto⟩
  · exact (Function.forall_update_iff s.ecb fun _ c => c.ptr.messages ≠ [] → c.wait.grp = 0).mpr
      ⟨hempty, fun e' _ => hnone e'⟩

theorem Inv.post (h : s.Inv) (e pmsg : ℕ) : (s.post e pmsg).2.Inv := by
  rw [Os.post]
  split_ifs with hgrp
  · exact (h.ok.eventTaskRdy hgrp pmsg).sched fun _ =>
      ⟨h.cur_lt, (Bitmap.mem_insert ..).mpr (.inr h.cur_rdy)⟩
  · cases (s.ecb e).ptr.put pmsg with
    | none => exact h
    | some ptr => exact h.setPtr fun _ => not_not.mp hgrp

/-- The running task is a task, and it runs because it does not wait. -/
theorem Inv.cur_task (h : s.Inv) (hidle : s.cur ≠ idlePrio) :
    s.cur ∈ s.tasks ∧ (s.tcb s.cur).pend = false ∧ (s.tcb s.cur).dly = 0 :=
  ((h.ok.task _ h.cur_lt).rdy_iff.mp h.cur_rdy).resolve_left hidle

theorem Inv.wait (h : s.Inv) (hidle : s.cur ≠ idlePrio) (hget : (s.ecb e).ptr.messages = [])
    (hevent : (s.tcb s.cur).event = none) (timeout : ℕ) : (s.wait e timeout).Ok := by
  obtain ⟨htask, hpend, -⟩ := h.cur_task hidle
  refine h.ok.changeWait (t := s.cur) rfl rfl (fun t' hne => Function.update_of_ne hne ..)
    (fun t' hne => ?_) (fun t' hne => ?_)
    ⟨?_, fun e' => ?_, fun _ => htask, ?_, ?_⟩ (h.ok.rdy_wf.remove h.cur_lt)
    ((h.ok.wait_wf e).insert h.cur_lt)
    fun hmessages => absurd hget hmessages
  · exact (Bitmap.mem_remove ..).trans (and_iff_right hne)
  · exact (Bitmap.mem_insert ..).trans (or_iff_right hne)
  · refine iff_of_false (fun hmem => ((Bitmap.mem_remove ..).mp hmem).1 rfl) ?_
    simp [Os.wait, hidle]
  · rcases eq_or_ne e' e with rfl | he
    · refine iff_of_true ?_ ⟨htask, ?_, .inl ?_⟩ <;> simp [Os.wait, Bitmap.mem_insert]
    · refine iff_of_false ?_ ?_
      · simp only [Os.wait, Function.update_of_ne he]
        exact (h.ok.task _ h.cur_lt).not_mem (by simp [hevent])
      · simp [Os.wait, Ne.symm he]
  · simp [Os.wait]
  · simp [Os.wait]

/-- A task leaves the wait list when its time has run out; otherwise the post has taken it from
    there. -/
theorem Inv.pendEnd (h : s.Inv) (hevent : (s.tcb s.cur).event = some e) : (s.pendEnd e).2.Inv := by
  have hat := h.ok.task _ h.cur_lt
  have htask : s.cur ∈ s.tasks := hat.inside (by simp [hevent])
  obtain ⟨-, hpend, -⟩ := h.cur_task (h.ok.tasks_lt _ htask).ne
  rw [Os.pendEnd]
  split_ifs with hto
  · refine ⟨h.ok.changeWait (t := s.cur) rfl rfl (fun t' hne => Function.update_of_ne hne ..)
      (fun _ _ => Iff.rfl)
      (fun t' hne => ?_) ⟨?_, fun e' => ?_, fun _ => htask, ?_,
      ?_⟩ h.ok.rdy_wf ((h.ok.wait_wf e).remove h.cur_lt)
      fun hmessages => Bitmap.grp_remove (h.ok.empty e hmessages) _, h.cur_lt, h.cur_rdy, h.least⟩
    · exact (Bitmap.mem_remove ..).trans (and_iff_right hne)
    · simpa [hpend] using hat.rdy_iff
    · refine iff_of_false ?_ (by simp)
      rcases eq_or_ne e' e with rfl | he
      · simp [Bitmap.mem_remove]
      · simp only [Function.update_of_ne he]
        exact hat.not_mem (by simp [hevent, he.symm])
    · simp
    · simp
  · refine ⟨h.ok.change (t := s.cur) ⟨rfl, fun t' hne => Function.update_of_ne hne ..,
      fun _ _ => Iff.rfl, fun _ _ _ => Iff.rfl⟩
      ⟨?_, fun e' => ?_, fun _ => htask, ?_, ?_⟩ h.ok.rdy_wf h.ok.wait_wf h.ok.empty, h.cur_lt,
      h.cur_rdy, h.least⟩
    · simpa [hpend] using hat.rdy_iff
    · simpa [hpend, hto] using hat.wait_iff e'
    · simp
    · simp

theorem Inv.timeDly (h : s.Inv) (hidle : s.cur ≠ idlePrio) (hevent : (s.tcb s.cur).event = none)
    (ticks : ℕ) :
    (s.timeDly ticks).Inv := by
  rw [Os.timeDly]
  split_ifs with hlock hticks
  · exact h
  · have hat := h.ok.task _ h.cur_lt
    obtain ⟨htask, -, -⟩ := h.cur_task hidle
    refine Ok.sched (h.ok.change (t := s.cur) ⟨rfl, fun t' hne => Function.update_of_ne hne ..,
      fun t' hne => ?_,
      fun _ _ _ => Iff.rfl⟩ ⟨?_, fun e => ?_, fun _ => htask, ?_, ?_⟩ (h.ok.rdy_wf.remove h.cur_lt)
      h.ok.wait_wf h.ok.empty)
      fun hne => ?_
    · exact (Bitmap.mem_remove ..).trans (and_iff_right hne)
    · refine iff_of_false (fun hmem => ((Bitmap.mem_remove ..).mp hmem).1 rfl) ?_
      simp [hidle, hticks.ne']
    · simpa using hat.wait_iff e
    · simpa using hat.outside
    · simp [hat.outside hevent]
    · exact absurd (Nat.pos_of_ne_zero hne) hlock
  · exact h

/-- A task is ready after its last tick. -/
theorem Ok.tickTask (h : s.Ok) (ht : t ∈ s.tasks) : (s.tickTask t).Ok := by
  have hlt : t < 64 := (h.tasks_lt t ht).trans (by decide)
  have hat := h.task t hlt
  rw [Os.tickTask]
  split_ifs with hdly hlast
  · have hto := hat.timedOut_of_dly hdly
    refine h.change (t := t) ⟨rfl, fun t' hne => Function.update_of_ne hne .., fun t' hne => ?_,
      fun _ _ _ => Iff.rfl⟩
      ⟨?_, fun e => ?_, fun _ => ht, ?_, ?_⟩ (h.rdy_wf.insert hlt) h.wait_wf h.empty
    · exact (Bitmap.mem_insert ..).trans (or_iff_right hne)
    · refine iff_of_true ((Bitmap.mem_insert ..).mpr (.inl rfl)) (.inr ⟨ht, ?_⟩)
      simp
    · simpa [hto] using hat.wait_iff e
    · simpa using fun hevent => (hat.outside hevent).1
    · simp
  · refine h.change (t := t) ⟨rfl, fun t' hne => Function.update_of_ne hne .., fun _ _ => Iff.rfl,
      fun _ _ _ => Iff.rfl⟩
      ⟨?_, fun e => ?_, fun _ => ht, ?_, ?_⟩ h.rdy_wf h.wait_wf h.empty
    · rw [hat.rdy_iff]
      simp [hdly, hlast]
    · simpa using hat.wait_iff e
    · simpa using hat.outside
    · simpa using fun hto => absurd (hat.timedOut hto).2 hdly
  · exact h

/-- A tick changes no list but the ready list, which only grows, and no message. -/
structure Ticked (s s' : Os) : Prop where
  tasks : s'.tasks = s.tasks
  ecb : s'.ecb = s.ecb
  cur : s'.cur = s.cur
  rdy : ∀ t, s.rdy.Mem t → s'.rdy.Mem t
  held : ∀ t, s'.held t = s.held t

theorem Ok.ticked (h : s.Ok) (ht : t ∈ s.tasks) : Ticked s (s.tickTask t) := by
  have hat := h.task t ((h.tasks_lt t ht).trans (by decide))
  rw [Os.tickTask]
  split_ifs with hdly hlast
  · have hto := hat.timedOut_of_dly hdly
    refine ⟨rfl, rfl, rfl, fun t' hmem => (Bitmap.mem_insert ..).mpr (.inr hmem), fun t' => ?_⟩
    rcases eq_or_ne t' t with rfl | hne
    · simp [Os.held, Tcb.held, hto]
    · simp [Os.held, hne]
  · refine ⟨rfl, rfl, rfl, fun _ hmem => hmem, fun t' => ?_⟩
    rcases eq_or_ne t' t with rfl | hne
    · simp [Os.held, Tcb.held]
    · simp [Os.held, hne]
  · exact ⟨rfl, rfl, rfl, fun _ hmem => hmem, fun _ => rfl⟩

theorem Ok.ticks (h : s.Ok) : (s.tasks.foldl Os.tickTask s).Ok ∧
    Ticked s (s.tasks.foldl Os.tickTask s) := by
  refine Run.foldl_inv_of_mem (fun s' => s'.Ok ∧ Ticked s s') (fun t ht s' hs' => ?_)
    ⟨h, rfl, rfl, rfl, fun _ hmem => hmem, fun _ => rfl⟩
  obtain ⟨hok, htasks, hecb, hcur, hrdy, hheld⟩ := hs'
  have htick := hok.ticked (htasks ▸ ht)
  exact ⟨hok.tickTask (htasks ▸ ht), htick.tasks.trans htasks, htick.ecb.trans hecb,
    htick.cur.trans hcur,
    fun t' hmem => htick.rdy t' (hrdy t' hmem), fun t' => (htick.held t').trans (hheld t')⟩

theorem Inv.timeTick (h : s.Inv) : s.timeTick.Inv := by
  obtain ⟨hok, htick⟩ := h.ok.ticks
  exact hok.sched fun _ => ⟨htick.cur.symm ▸ h.cur_lt, htick.cur.symm ▸ htick.rdy _ h.cur_rdy⟩

theorem Inv.pend (h : s.Inv) (hidle : s.cur ≠ idlePrio) (hevent : (s.tcb s.cur).event = none)
    (e timeout : ℕ) :
    (s.pend e timeout).2.Inv := by
  rw [Os.pend]
  split_ifs with hlock
  · exact h
  · cases hget : (s.ecb e).ptr.get with
    | some r =>
      refine h.setPtr fun _ => h.ok.empty e ?_
      rw [OsEventPtr.get_eq_some hget]
      exact List.cons_ne_nil _ _
    | none =>
      have hwait := h.wait hidle (OsEventPtr.get_eq_none.mp hget) hevent timeout
      exact hwait.sched fun hne => absurd (Nat.pos_of_ne_zero hne) hlock

theorem Inv.schedLock (h : s.Inv) : s.schedLock.Inv := by
  rw [Os.schedLock]
  split_ifs
  · exact ⟨h.ok.run s.cur _, h.cur_lt, h.cur_rdy, fun hzero => absurd hzero (Nat.succ_ne_zero _)⟩
  · exact h

theorem Inv.schedUnlock (h : s.Inv) : s.schedUnlock.Inv := by
  rw [Os.schedUnlock]
  split_ifs
  · exact (h.ok.run s.cur _).sched fun _ => ⟨h.cur_lt, h.cur_rdy⟩
  · exact h

end Os

end VectorFence
