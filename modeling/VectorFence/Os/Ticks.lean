import VectorFence.Os.Delivery

/-! How long a task waits. `OSTCBDly` and the ticks that came since are together the time the task
    asked for, as long as it was given no message: it is ready neither before its last tick nor
    behind it. -/

namespace VectorFence

open Fifo

/-- What a tick does to a task. -/
def Tcb.tick (c : Tcb) : Tcb :=
  if c.dly ≠ 0 then if c.dly - 1 = 0 then
    { c with dly := 0, pend := false, timedOut := c.pend } else { c with dly := c.dly - 1 }
  else c

namespace Os

theorem tcb_tickTask (s : Os) (t : ℕ) :
    (s.tickTask t).tcb = Function.update s.tcb t (s.tcb t).tick := by
  rw [tickTask, Tcb.tick]
  split_ifs
  · rfl
  · rfl
  · rw [Function.update_eq_self]

theorem tcb_ticks (t : ℕ) : ∀ (ts : List ℕ) (s : Os), ts.Nodup →
    (ts.foldl tickTask s).tcb t = if t ∈ ts then (s.tcb t).tick else s.tcb t
  | [], s, _ => by simp
  | t' :: ts, s, h => by
      rw [List.nodup_cons] at h
      rw [List.foldl_cons, tcb_ticks t ts _ h.2, tcb_tickTask]
      rcases eq_or_ne t t' with rfl | hne
      · rw [if_neg h.1, Function.update_self, if_pos (List.mem_cons_self ..)]
      · rw [Function.update_of_ne hne]
        simp [hne]

end Os

def OsAct.isTick : OsAct → Bool
  | .tick => true
  | _ => false

namespace OsRun

variable {s : OsRun} {t n : ℕ}

theorem tasks_step (h : s.os.Inv) (a : OsAct) : (s.step a).os.tasks = s.os.tasks := by
  cases a with
  | post e pmsg =>
    by_cases hgrp : (s.os.ecb e).wait.grp = 0
    · cases hput : (s.os.ecb e).ptr.put pmsg <;> simp [step, Os.post, hgrp, hput]
    · simp [step, Os.post, hgrp, Os.eventTaskRdy]
  | pend e timeout =>
    rw [step]
    split_ifs
    · rw [Os.pend]
      split_ifs
      · rfl
      · cases (s.os.ecb e).ptr.get <;> simp [Os.wait]
    · rfl
  | pendEnd =>
    rw [step]
    cases (s.os.tcb s.os.cur).event with
    | none => rfl
    | some e => cases hto : (s.os.tcb s.os.cur).timedOut <;> simp [Os.pendEnd, hto]
  | timeDly ticks =>
    rw [step, Os.timeDly]
    split_ifs <;> simp
  | lock =>
    rw [step, Os.schedLock]
    split_ifs <;> rfl
  | unlock =>
    rw [step, Os.schedUnlock]
    split_ifs <;> simp
  | tick => simp [step, Os.timeTick, h.ok.ticks.2.tasks]

/-- What the running task does concerns no other task. -/
theorem frame_step (ht : t ≠ s.os.cur) {a : OsAct} (htick : a.isTick = false)
    (hpost : ∀ e pmsg, a ≠ .post e pmsg) :
    (s.step a).os.tcb t = s.os.tcb t ∧ ofKey t (s.step a).given = ofKey t s.given := by
  cases a with
  | post e pmsg => exact absurd rfl (hpost e pmsg)
  | pend e timeout =>
    rw [step]
    split_ifs
    · rw [Os.pend]
      split_ifs
      · exact ⟨rfl, rfl⟩
      · cases (s.os.ecb e).ptr.get with
        | some r => exact ⟨rfl, ofKey_concat_of_ne ht.symm ..⟩
        | none => simp [Os.wait, ht]
    · exact ⟨rfl, rfl⟩
  | pendEnd =>
    rw [step]
    cases (s.os.tcb s.os.cur).event with
    | none => exact ⟨rfl, rfl⟩
    | some e => cases hto : (s.os.tcb s.os.cur).timedOut <;> simp [Os.pendEnd, hto, ht]
  | timeDly ticks =>
    rw [step, Os.timeDly]
    split_ifs <;> simp [ht]
  | lock =>
    rw [step, Os.schedLock]
    split_ifs <;> exact ⟨rfl, rfl⟩
  | unlock =>
    rw [step, Os.schedUnlock]
    split_ifs <;> simp
  | tick => simp [OsAct.isTick] at htick

/-- A task that has `n` ticks to wait. -/
structure Delayed (s : OsRun) (t n : ℕ) : Prop where
  inv : s.os.Inv
  nodup : s.os.tasks.Nodup
  task : t ∈ s.os.tasks
  dly : (s.os.tcb t).dly = n

theorem Delayed.next (h : s.Delayed t n) {m : ℕ} {a : OsAct} (hdly : ((s.step a).os.tcb t).dly = m) :
    (s.step a).Delayed t m := by
  have htasks := tasks_step h.inv a
  exact ⟨step_inv h.inv a, htasks ▸ h.nodup, htasks ▸ h.task, hdly⟩

/-- A step gives the task a message, or the last tick makes it ready, or it goes on waiting. -/
theorem Delayed.step (h : s.Delayed t (n + 1)) (a : OsAct) :
    ((∃ p, (s.step a).given = s.given ++ [(t, p)]) ∧ (s.step a).os.Runnable t) ∨
      ((s.step a).given = s.given ∧ (s.step a).os.Runnable t ∧ a.isTick = true ∧ n = 0) ∨
      (ofKey t (s.step a).given = ofKey t s.given ∧ (a.isTick = true → n ≠ 0) ∧
        (s.step a).Delayed t (if a.isTick then n else n + 1)) := by
  have hcur : t ≠ s.os.cur := by
    rintro rfl
    have hidle := (h.inv.ok.tasks_lt _ h.task).ne
    have hdly := (h.inv.cur_task hidle).2.2
    rw [h.dly] at hdly
    omega
  have hrest (htick : a.isTick = false) (hpost : ∀ e pmsg, a ≠ .post e pmsg) :
      ofKey t (s.step a).given = ofKey t s.given ∧ (a.isTick = true → n ≠ 0) ∧
        (s.step a).Delayed t (if a.isTick then n else n + 1) := by
    obtain ⟨htcb, hgiven⟩ := frame_step hcur htick hpost
    rw [htick]
    exact ⟨hgiven, fun hfalse => absurd hfalse Bool.false_ne_true, h.next (htcb ▸ h.dly)⟩
  cases a with
  | post e pmsg =>
    by_cases hgrp : (s.os.ecb e).wait.grp = 0
    · refine .inr (.inr ?_)
      cases hput : (s.os.ecb e).ptr.put pmsg with
      | none | some ptr =>
        refine ⟨?_, fun hfalse => absurd hfalse Bool.false_ne_true, h.next ?_⟩
        · simp [OsRun.step, Os.post, hgrp, hput]
        · simp [OsRun.step, Os.post, hgrp, hput, h.dly, OsAct.isTick]
    · obtain ⟨-, htask, -⟩ := h.inv.ok.waiting hgrp
      have hgiven : (s.step (.post e pmsg)).given = s.given ++
        [((s.os.ecb e).wait.least unMap, e, pmsg)] := by
        simp [OsRun.step, Os.post, hgrp, Os.eventTaskRdy]
      rcases eq_or_ne ((s.os.ecb e).wait.least unMap) t with hself | hother
      · refine .inl ⟨⟨(e, pmsg), hself ▸ hgiven⟩, .inr ?_⟩
        simp [OsRun.step, Os.post, hgrp, Os.eventTaskRdy, ← hself, htask]
      · refine .inr (.inr ⟨?_, fun hfalse => absurd hfalse Bool.false_ne_true, h.next ?_⟩)
        · rw [hgiven, ofKey_concat_of_ne hother]
        · simp [OsRun.step, Os.post, hgrp, Os.eventTaskRdy, hother.symm, h.dly, OsAct.isTick]
  | tick =>
    have htcb : (s.step .tick).os.tcb t = (s.os.tcb t).tick := by
      simp only [OsRun.step, Os.timeTick, Os.tcb_sched]
      rw [Os.tcb_ticks t _ _ h.nodup, if_pos h.task]
    rw [Tcb.tick, h.dly] at htcb
    cases n with
    | zero =>
      refine .inr (.inl ⟨rfl, .inr ⟨(tasks_step h.inv .tick).symm ▸ h.task, ?_⟩, rfl, rfl⟩)
      rw [htcb]
      simp
    | succ n =>
      refine .inr (.inr ⟨rfl, fun _ => Nat.succ_ne_zero n, h.next ?_⟩)
      rw [htcb]
      simp [OsAct.isTick]
  | pend | pendEnd | timeDly | lock | unlock => exact .inr (.inr (hrest rfl (by simp)))

theorem given_step (s : OsRun) (a : OsAct) : s.given <+: (s.step a).given := by
  cases a with
  | post e pmsg =>
    rw [step]
    cases (s.os.post e pmsg).1 with
    | full | queued => exact List.prefix_rfl
    | gave prio => exact List.prefix_append ..
  | pend e timeout =>
    rw [step]
    split_ifs
    · simp only
      cases (s.os.pend e timeout).1 with
      | locked | waits => exact List.prefix_rfl
      | msg pmsg => exact List.prefix_append ..
    · exact List.prefix_rfl
  | pendEnd =>
    rw [step]
    cases (s.os.tcb s.os.cur).event with
    | none => exact List.prefix_rfl
    | some e =>
      simp only
      cases (s.os.pendEnd e).1 <;> exact List.prefix_rfl
  | timeDly | lock | unlock =>
    rw [step]
    split_ifs <;> exact List.prefix_rfl
  | tick => exact List.prefix_rfl

theorem given_foldl (s : OsRun) (acts : List OsAct) : s.given <+: (acts.foldl step s).given :=
  Run.foldl_inv (fun s' : OsRun => s.given <+: s'.given) (fun s' a h => h.trans (given_step s' a))
    acts s List.prefix_rfl

/-- Not before its time: it is given a message or waits on. -/
theorem Delayed.early : ∀ {acts : List OsAct} {s : OsRun} {n : ℕ}, s.Delayed t n →
    acts.countP OsAct.isTick < n →
    ofKey t (acts.foldl OsRun.step s).given = ofKey t s.given →
      (acts.foldl OsRun.step s).Delayed t (n - acts.countP OsAct.isTick)
  | [], s, n, h, _, _ => h
  | a :: acts, s, 0, h, hlt, _ => absurd hlt (Nat.not_lt_zero _)
  | a :: acts, s, n + 1, h, hlt, hgiven => by
      rw [List.countP_cons] at hlt ⊢
      rw [List.foldl_cons] at hgiven ⊢
      rcases h.step a with ⟨⟨p, hp⟩, -⟩ | ⟨-, -, htick, rfl⟩ | ⟨hsame, -, hnext⟩
      · obtain ⟨l, hl⟩ := given_foldl (s.step a) acts
        rw [← hl, hp, ofKey_append, ofKey_concat_self, List.append_assoc] at hgiven
        simp at hgiven
      · rw [htick] at hlt
        simp at hlt
      · rw [← hsame] at hgiven
        cases htick : a.isTick with
        | true =>
          rw [htick, if_pos rfl] at hlt hnext
          simpa using hnext.early (by omega) hgiven
        | false =>
          rw [htick, if_neg Bool.false_ne_true] at hlt hnext
          exact hnext.early hlt hgiven

/-- Not behind it either. -/
theorem Delayed.late : ∀ {acts : List OsAct} {s : OsRun} {n : ℕ}, s.Delayed t (n + 1) →
    n < acts.countP OsAct.isTick →
    ∃ mid, mid <+: acts ∧ (mid.foldl OsRun.step s).os.Runnable t
  | [], s, n, h, hle => absurd hle (Nat.not_lt_zero _)
  | a :: acts, s, n, h, hle => by
      rw [List.countP_cons] at hle
      rcases h.step a with ⟨-, hrun⟩ | ⟨-, hrun, -⟩ | ⟨-, hlast, hnext⟩
      · exact ⟨[a], List.prefix_append [a] acts, hrun⟩
      · exact ⟨[a], List.prefix_append [a] acts, hrun⟩
      · have hrest : ∃ mid, mid <+: acts ∧ (mid.foldl OsRun.step (s.step a)).os.Runnable t := by
          cases htick : a.isTick with
          | true =>
            rw [htick, if_pos rfl] at hle hnext
            cases n with
            | zero => exact absurd rfl (hlast htick)
            | succ n => exact hnext.late (by omega)
          | false =>
            rw [htick, if_neg Bool.false_ne_true] at hle hnext
            exact hnext.late hle
        obtain ⟨mid, hmid, hrun⟩ := hrest
        exact ⟨a :: mid, List.cons_prefix_cons.mpr ⟨rfl, hmid⟩, hrun⟩

/-- A task that has `n + 1` ticks to wait waits until it is given a message, or until its last tick
    and no longer. -/
theorem woken_run (tasks : List (Fin 63)) (size : ℕ → ℕ) (acts : List OsAct) (t : Fin 63) (n : ℕ)
    (ht : t ∈ tasks)
    (hdly : ((run tasks size acts).os.tcb t).dly = n + 1) (more : List OsAct) :
    (more.countP OsAct.isTick ≤ n →
      ofKey (t : ℕ) (more.foldl OsRun.step (run tasks size acts)).given = ofKey (t : ℕ)
      (run tasks size acts).given →
      ((more.foldl OsRun.step (run tasks size acts)).os.tcb t).dly + more.countP OsAct.isTick = n + 1) ∧
    (n < more.countP OsAct.isTick →
      ∃ mid, mid <+: more ∧ (mid.foldl OsRun.step (run tasks size acts)).os.Runnable t) := by
  have hinv := inv_run tasks size acts
  have htasks : (run tasks size acts).os.tasks = tasks.dedup.map Fin.val :=
    (Run.foldl_inv (fun s : OsRun => s.os.Inv ∧ s.os.tasks = tasks.dedup.map Fin.val)
      (fun s a h => ⟨step_inv h.1 a, (tasks_step h.1 a).trans h.2⟩) acts _
      ⟨inv_start tasks size, Os.tasks_sched _⟩).2
  have hdelayed : Delayed (run tasks size acts) t (n + 1) := by
    refine ⟨hinv, ?_, ?_, hdly⟩
    · rw [htasks]
      exact (List.nodup_dedup tasks).map Fin.val_injective
    · rw [htasks]
      exact List.mem_map_of_mem (List.mem_dedup.mpr ht)
  refine ⟨fun hle hgiven => ?_, hdelayed.late⟩
  have := (hdelayed.early (Nat.lt_succ_of_le hle) hgiven).dly
  omega

theorem woken_run_timeDly : ∃ mid, mid <+: [.tick, .post 0 7, .tick] ∧
    (mid.foldl OsRun.step (run [5] (fun _ => 0) [.timeDly 2])).os.Runnable 5 :=
  (woken_run [5] (fun _ => 0) [.timeDly 2] 5 1 (by decide) (by decide +kernel) [.tick, .post 0 7,
    .tick]).2 (by decide)

end OsRun

end VectorFence
