import VectorFence.Lib.Fifo
import VectorFence.Os.Kernel

/-! Runs of the kernel. Whatever the order of posts, pends, time-outs and ticks is, a queue or
    mailbox gives its messages out in the order it took them, and a task comes back from `OSQPend`
    with what it was given.

        accepted at e:   m1 m2 m3 m4 m5
        given from e:    m1 m2 m3          in e: m4 m5
        given to t:      m1 m3
        taken by t:      m1                in the TCB of t: m3

    The runs leave out `OSQDel`, `OSQFlush` and `OSTaskSuspend`, `OSMutexPend` with its priority
    inheritance, and tasks that are created after `OSStart`. A NULL that is posted to an empty
    mailbox leaves it empty, and is not one of the messages accepted. -/

namespace VectorFence

open Fifo

/-- The kernel, the messages accepted with their events, those given to tasks, and those that the
    tasks came back with. -/
structure OsRun where
  os : Os
  accepted : List (ℕ × ℕ)
  given : List (ℕ × ℕ × ℕ)
  taken : List (ℕ × ℕ × ℕ)

/-- What happens: a task or an interrupt posts; the running task calls the kernel, or comes back
    from a pend; the clock ticks. -/
inductive OsAct where
  | post (e pmsg : ℕ)
  | pend (e timeout : ℕ)
  | pendEnd
  | timeDly (ticks : ℕ)
  | lock
  | unlock
  | tick

namespace OsRun

/-- The running task can call the kernel: it is not the idle task, and not inside of a pend. -/
def calls (s : OsRun) : Bool := s.os.cur ≠ Os.idlePrio && (s.os.tcb s.os.cur).event.isNone

def step (s : OsRun) : OsAct → OsRun
  | .post e pmsg =>
      let r := s.os.post e pmsg
      match r.1 with
      | .full => s
      | .queued =>
          { s with os := r.2, accepted := s.accepted ++ if (s.os.ecb e).ptr.Takes pmsg then [(e, pmsg)] else [] }
      | .gave prio =>
          { s with os := r.2, accepted := s.accepted ++ [(e, pmsg)], given := s.given ++ [(prio, e, pmsg)] }
  | .pend e timeout =>
      if s.calls then
        let r := s.os.pend e timeout
        match r.1 with
        | .msg pmsg =>
            { s with os := r.2, given := s.given ++ [(s.os.cur, e, pmsg)], taken := s.taken ++ [(s.os.cur, e, pmsg)] }
        | _ => { s with os := r.2 }
      else s
  | .pendEnd =>
      match (s.os.tcb s.os.cur).event with
      | none => s
      | some e =>
          let r := s.os.pendEnd e
          match r.1 with
          | some pmsg => { s with os := r.2, taken := s.taken ++ [(s.os.cur, e, pmsg)] }
          | none => { s with os := r.2 }
  | .timeDly ticks => if s.calls then { s with os := s.os.timeDly ticks } else s
  | .lock => if s.calls then { s with os := s.os.schedLock } else s
  | .unlock => if s.calls then { s with os := s.os.schedUnlock } else s
  | .tick => { s with os := s.os.timeTick }

/-- The tasks and events are created, a queue with its size and a mailbox with 0; `OSTaskCreate`
    refuses a priority that is taken. -/
def created (tasks : List (Fin 63)) (size : ℕ → ℕ) : Os where
  rdy := (tasks.dedup.map Fin.val).foldl Bitmap.insert (Bitmap.empty.insert Os.idlePrio)
  tcb := fun _ => ⟨false, false, 0, 0, none⟩
  ecb := fun e => ⟨Bitmap.empty, .create (size e)⟩
  cur := Os.idlePrio
  lock := 0
  tasks := tasks.dedup.map Fin.val

/-- `OSStart`. -/
def start (tasks : List (Fin 63)) (size : ℕ → ℕ) : OsRun := ⟨(created tasks size).sched, [], [], []⟩

def run (tasks : List (Fin 63)) (size : ℕ → ℕ) (acts : List OsAct) : OsRun :=
  acts.foldl step (start tasks size)

end OsRun

namespace Os

/-- Nothing keeps the task from running. -/
def Runnable (s : Os) (t : ℕ) : Prop :=
  t = idlePrio ∨ (t ∈ s.tasks ∧ (s.tcb t).pend = false ∧ (s.tcb t).dly = 0)

/-- The task is inside of a pend at `e` and was given nothing; its time may have run out. -/
def Waits (s : Os) (e t : ℕ) : Prop :=
  t ∈ s.tasks ∧ (s.tcb t).event = some e ∧ ((s.tcb t).pend = true ∨ (s.tcb t).timedOut = true)

end Os

namespace OsRun

/-- No message is lost, doubled or overtaken. -/
structure Delivers (s : OsRun) : Prop where
  event : Flows s.accepted (s.given.map Prod.snd) s.os.inside
  task : Flows s.given s.taken s.os.held

variable {s : OsRun} {e t pmsg : ℕ}

theorem calls_iff : s.calls = true ↔ s.os.cur ≠ Os.idlePrio ∧ (s.os.tcb s.os.cur).event = none := by
  simp [calls]

theorem inv_start (tasks : List (Fin 63)) (size : ℕ → ℕ) : (start tasks size).os.Inv := by
  have hmem (t : ℕ) : ((tasks.dedup.map Fin.val).foldl Bitmap.insert
    (Bitmap.empty.insert Os.idlePrio)).Mem t ↔
      t = Os.idlePrio ∨ t ∈ tasks.dedup.map Fin.val := by
    rw [Bitmap.mem_foldl_insert, Bitmap.mem_insert, or_comm]
    simp [Bitmap.not_mem_empty]
  have hlt : ∀ t ∈ tasks.dedup.map Fin.val, t < Os.idlePrio := by
    simp only [List.mem_map]
    rintro t ⟨i, -, rfl⟩
    exact i.isLt
  have hok : (created tasks size).Ok := by
    refine ⟨hlt, ?_, fun _ => Bitmap.wf_empty, fun t _ => ⟨?_, fun e => ?_, ?_, ?_, ?_⟩, fun e h => ?_⟩
    · exact (Bitmap.wf_empty.insert (by decide)).foldl_insert fun t ht => (hlt t ht).trans (by decide)
    · rw [created, hmem]
      simp
    · simp [created, Bitmap.not_mem_empty]
    · simp [created]
    · simp [created]
    · simp [created]
    · exact absurd (OsEventPtr.messages_create _) h
  exact hok.sched fun hne => absurd rfl hne

theorem step_inv (h : s.os.Inv) (a : OsAct) : (s.step a).os.Inv := by
  cases a with
  | post e pmsg =>
    have hpost := h.post e pmsg
    rw [step]
    cases hres : (s.os.post e pmsg).1 with
    | full => simpa only [hres] using h
    | queued => simpa only [hres] using hpost
    | gave prio => simpa only [hres] using hpost
  | pend e timeout =>
    rw [step]
    split_ifs with hcalls
    · obtain ⟨hidle, hevent⟩ := calls_iff.mp hcalls
      have hpend := h.pend hidle hevent e timeout
      cases hres : (s.os.pend e timeout).1 <;> simpa only [hres] using hpend
    · exact h
  | pendEnd =>
    rw [step]
    cases hevent : (s.os.tcb s.os.cur).event with
    | none => exact h
    | some e =>
      have hend := h.pendEnd hevent
      cases hres : (s.os.pendEnd e).1 <;> simpa only [hres] using hend
  | timeDly ticks =>
    rw [step]
    split_ifs with hcalls
    · obtain ⟨hidle, hevent⟩ := calls_iff.mp hcalls
      exact h.timeDly hidle hevent ticks
    · exact h
  | lock =>
    rw [step]
    split_ifs
    · exact h.schedLock
    · exact h
  | unlock =>
    rw [step]
    split_ifs
    · exact h.schedUnlock
    · exact h
  | tick => exact h.timeTick

theorem Delivers.post (h : s.Delivers) (hinv : s.os.Inv) (e pmsg : ℕ) :
    (s.step (.post e pmsg)).Delivers := by
  by_cases hgrp : (s.os.ecb e).wait.grp = 0
  · cases hput : (s.os.ecb e).ptr.put pmsg with
    | none => simpa [step, Os.post, hgrp, hput] using h
    | some ptr =>
      simp only [step, Os.post, hgrp, hput, ne_eq, not_true_eq_false, if_false]
      split_ifs with htakes
      · refine ⟨h.event.put ?_ fun e' hne => ?_, h.task⟩
        · simpa [Os.inside] using OsEventPtr.put_eq_some hput htakes
        · simp [Os.inside, hne]
      · rw [List.append_nil]
        refine ⟨h.event.congr fun e' => ?_, h.task⟩
        rcases eq_or_ne e' e with rfl | hne
        · simpa [Os.inside] using OsEventPtr.put_of_not_takes hput htakes
        · simp [Os.inside, hne]
  · obtain ⟨-, -, hevent, hstat, -⟩ := hinv.ok.waiting hgrp
    have hnone : s.os.inside e = [] := by
      by_contra hne
      exact hgrp (hinv.ok.empty e hne)
    simp only [step, Os.post, hgrp, ne_eq, not_false_eq_true, if_true, Os.eventTaskRdy]
    set t := (s.os.ecb e).wait.least unMap
    constructor
    · rw [List.map_append]
      refine (h.event.pass hnone pmsg).congr fun e' => ?_
      rcases eq_or_ne e' e with rfl | hne
      · simp [Os.inside]
      · simp [Os.inside, hne]
    · refine h.task.put ?_ fun t' hne => ?_
      · rcases hstat with hpend | hto
        · simp [Os.held, Tcb.held, hevent, hpend]
        · simp [Os.held, Tcb.held, hevent, hto]
      · simp [Os.held, hne]

theorem Delivers.pend (h : s.Delivers) (e timeout : ℕ) : (s.step (.pend e timeout)).Delivers := by
  by_cases hcalls : s.calls
  · obtain ⟨hidle, hevent⟩ := calls_iff.mp hcalls
    have hheld : s.os.held s.os.cur = [] := by rw [Os.held, Tcb.held, hevent]
    by_cases hlock : s.os.lock > 0
    · simpa [step, Os.pend, hcalls, hlock] using h
    · cases hget : (s.os.ecb e).ptr.get with
      | some r =>
        simp only [step, Os.pend, hcalls, hlock, hget, if_true, if_false]
        refine ⟨?_, ?_⟩
        · rw [List.map_append]
          refine h.event.take ?_ fun e' hne => ?_
          · simpa [Os.inside] using OsEventPtr.get_eq_some hget
          · simp [Os.inside, hne]
        · exact h.task.pass hheld (e, r.1)
      | none =>
        simp only [step, Os.pend, hcalls, hlock, hget, if_true, if_false]
        refine ⟨h.event.congr fun e' => ?_, h.task.congr fun t' => ?_⟩
        · rcases eq_or_ne e' e with rfl | hne
          · simp [Os.inside, Os.wait]
          · simp [Os.inside, Os.wait, hne]
        · rcases eq_or_ne t' s.os.cur with rfl | hne
          · rw [hheld]
            simp [Os.held, Os.wait, Tcb.held]
          · simp [Os.held, Os.wait, hne]
  · simpa [step, hcalls] using h

theorem Delivers.pendEnd (h : s.Delivers) (hinv : s.os.Inv) : (s.step .pendEnd).Delivers := by
  cases hevent : (s.os.tcb s.os.cur).event with
  | none => simpa [step, hevent] using h
  | some e =>
    have htask := (hinv.ok.task _ hinv.cur_lt).inside (by simp [hevent])
    obtain ⟨-, hpend, -⟩ := hinv.cur_task (hinv.ok.tasks_lt _ htask).ne
    have hheld : s.os.held s.os.cur = if (s.os.tcb s.os.cur).timedOut then
      [] else [(e, (s.os.tcb s.os.cur).msg)] := by
      simp [Os.held, Tcb.held, hevent, hpend]
    cases hto : (s.os.tcb s.os.cur).timedOut with
    | true =>
      rw [hto, if_pos rfl] at hheld
      simp only [step, hevent, Os.pendEnd, hto, if_true]
      refine ⟨h.event.congr fun e' => ?_, h.task.congr fun t' => ?_⟩
      · rcases eq_or_ne e' e with rfl | hne
        · simp [Os.inside]
        · simp [Os.inside, hne]
      · rcases eq_or_ne t' s.os.cur with rfl | hne
        · rw [hheld]
          simp [Os.held, Tcb.held]
        · simp [Os.held, hne]
    | false =>
      rw [hto, if_neg (by decide)] at hheld
      simp only [step, hevent, Os.pendEnd, hto, Bool.false_eq_true, if_false]
      refine ⟨h.event, h.task.take ?_ fun t' hne => ?_⟩
      · rw [hheld]
        simp [Os.held, Tcb.held]
      · simp [Os.held, hne]

theorem Delivers.step (h : s.Delivers) (hinv : s.os.Inv) (a : OsAct) : (s.step a).Delivers := by
  cases a with
  | post e pmsg => exact h.post hinv e pmsg
  | pend e timeout => exact h.pend e timeout
  | pendEnd => exact h.pendEnd hinv
  | timeDly ticks =>
    rw [OsRun.step]
    split_ifs
    · rw [Os.timeDly]
      split_ifs
      · exact h
      · refine ⟨h.event.congr fun e => by simp [Os.inside], h.task.congr fun t => ?_⟩
        rcases eq_or_ne t s.os.cur with rfl | hne
        · simp [Os.held, Tcb.held]
        · simp [Os.held, hne]
      · exact h
    · exact h
  | lock =>
    rw [OsRun.step, Os.schedLock]
    split_ifs
    · exact ⟨h.event, h.task⟩
    · exact h
    · exact h
  | unlock =>
    rw [OsRun.step, Os.schedUnlock]
    split_ifs
    · exact ⟨h.event.congr fun e => by simp [Os.inside], h.task.congr fun t => by simp [Os.held]⟩
    · exact h
    · exact h
  | tick =>
    obtain ⟨-, htick⟩ := hinv.ok.ticks
    refine ⟨h.event.congr fun e => ?_, h.task.congr fun t => ?_⟩
    · simp [OsRun.step, Os.timeTick, Os.inside, htick.ecb]
    · rw [← htick.held t]
      simp [OsRun.step, Os.timeTick, Os.held]

/-! ### Whole runs -/

variable (tasks : List (Fin 63)) (size : ℕ → ℕ) (acts : List OsAct)

theorem inv_run : (run tasks size acts).os.Inv :=
  Run.foldl_inv (fun s : OsRun => s.os.Inv) (fun _ a h => step_inv h a) acts _ (inv_start tasks size)

theorem delivers_start : (start tasks size).Delivers := by
  refine ⟨flows_nil fun e => ?_, flows_nil fun t => ?_⟩
  · simp [start, Os.inside, created, OsEventPtr.messages_create]
  · simp [start, Os.held, created, Tcb.held]

/-- The highest-priority task that nothing keeps from running is the one that runs, unless the
    scheduler is locked. -/
theorem scheduled_run : (run tasks size acts).os.Runnable (run tasks size acts).os.cur ∧
    ((run tasks size acts).os.lock = 0 → ∀ t, (run tasks size acts).os.Runnable t →
    (run tasks size acts).os.cur ≤ t) := by
  have hinv := inv_run tasks size acts
  set s := (run tasks size acts).os
  refine ⟨(hinv.ok.task _ hinv.cur_lt).rdy_iff.mp hinv.cur_rdy, fun hlock t ht => ?_⟩
  have hlt : t < 64 := by
    rcases ht with rfl | ⟨htask, -⟩
    · decide
    · exact (hinv.ok.tasks_lt t htask).trans (by decide)
  exact hinv.least hlock t hlt ((hinv.ok.task t hlt).rdy_iff.mpr ht)

/-- A message goes to the highest-priority task that waits for one, and to the queue only if no task
    does. -/
theorem handed_run (e pmsg t : ℕ) :
    (((run tasks size acts).os.post e pmsg).1 = .gave t ↔
      (run tasks size acts).os.Waits e t ∧ ∀ t', (run tasks size acts).os.Waits e t' → t ≤ t') ∧
    (((run tasks size acts).os.post e pmsg).1 = .gave t →
      ((run tasks size acts).os.post e pmsg).2.Runnable t ∧
      ((run tasks size acts).os.post e pmsg).2.held t = [(e, pmsg)]) := by
  have hinv := inv_run tasks size acts
  set s := (run tasks size acts).os
  have hmem {t : ℕ} (ht : s.Waits e t) : t < 64 ∧ (s.ecb e).wait.Mem t := by
    have hlt : t < 64 := (hinv.ok.tasks_lt t ht.1).trans (by decide)
    exact ⟨hlt, ((hinv.ok.task t hlt).wait_iff e).mpr ht⟩
  by_cases hgrp : (s.ecb e).wait.grp = 0
  · have hgave : (s.post e pmsg).1 ≠ .gave t := by
      cases hput : (s.ecb e).ptr.put pmsg <;> simp [Os.post, hgrp, hput]
    refine ⟨iff_of_false hgave fun ht => ?_, fun ht => absurd ht hgave⟩
    exact (hinv.ok.wait_wf e).grp_ne_zero_iff.mpr ⟨t, hmem ht.1⟩ hgrp
  · obtain ⟨-, htask, hevent, hstat, hleast⟩ := hinv.ok.waiting hgrp
    have hwaits : s.Waits e ((s.ecb e).wait.least unMap) := ⟨htask, hevent, hstat⟩
    have hgave : (s.post e pmsg).1 = .gave t ↔ (s.ecb e).wait.least unMap = t := by
      simp [Os.post, hgrp, Os.eventTaskRdy]
    refine ⟨hgave.trans ⟨?_, fun ht => ?_⟩, fun ht => ?_⟩
    · rintro rfl
      exact ⟨hwaits, fun t' ht' => hleast t' (hmem ht').1 (hmem ht').2⟩
    · exact le_antisymm (hleast t (hmem ht.1).1 (hmem ht.1).2) (ht.2 _ hwaits)
    · rw [hgave] at ht
      subst ht
      simp [Os.post, hgrp, Os.eventTaskRdy, Os.Runnable, Os.held, Tcb.held, htask, hevent]

theorem messages_run : (run tasks size acts).Delivers :=
  (Run.foldl_inv (fun s : OsRun => s.os.Inv ∧
    s.Delivers) (fun _ a h => ⟨step_inv h.1 a, h.2.step h.1 a⟩) acts _
    ⟨inv_start tasks size, delivers_start tasks size⟩).2

end OsRun

end VectorFence
