import VectorFence.Lib.Delta
import VectorFence.Lib.Run

/-! The timers of lwIP above the kernel. `sys_timeouts_mbox_fetch` waits for a message as long as
    the next timer has to run, and takes the time that `sys_arch_mbox_fetch` says it waited from
    that timer; so the timers have a clock of their own.

        OSTime    ──5 ms──┬──5 ms──┬──5 ms──┬──        a message behind k ticks: 5 k + 1 ms
        timers    ────────────────────────────▶        none in time: what the timer had to run

    A message that is fetched in the tick in which the wait began is said to have taken 21474832 ms.

    `OSQPend` hands a message over that is posted after the time has run out and before the thread
    runs: `k` may be longer than the time-out. The list is one of numbers without bound; no sum of
    its times reaches 2^32. -/

namespace VectorFence

open Delta

def osTicksPerSec : UInt32 := 200

def mempNumSysTimeout : ℕ := 8

/-- The time-out of `OSQPend` in `sys_arch_mbox_fetch`; 0 is no time-out. -/
def ucosTimeout (timeout : UInt32) : UInt16 :=
  if timeout ≠ 0 then
    let ticks := timeout * osTicksPerSec / 1000
    (if ticks < 1 then 1 else ticks).toUInt16
  else 0

/-- The time of `sys_arch_mbox_fetch` for a message, in ms. -/
def fetchTime (timeout timeoutNew : UInt32) : UInt32 :=
  let ticks := if timeoutNew > timeout then timeoutNew - timeout else 0xffffffff - timeout + timeoutNew
  ticks * 1000 / osTicksPerSec + 1

/-- `next_timeout`, a handler standing for its argument too, and `OSTime`. Beside them: the clock of
    the timers, which goes with `OSTime` while no timer runs, the ticks that came while the thread
    waited, the turns of `sys_timeouts_mbox_fetch`, the timers started and taken out with their due
    times, and those called with the time then. -/
structure Timers where
  list : List (ℕ × ℕ)
  osTime : UInt32
  clock : ℕ
  ticks : ℕ
  turns : ℕ
  started : List (ℕ × ℕ)
  removed : List (ℕ × ℕ)
  called : List (ℕ × ℕ)

/-- `sys_timeout`, `sys_untimeout`, a turn of `sys_timeouts_mbox_fetch` in which a message is
    fetched behind `k` ticks, or none, and `k` ticks while the thread is at work, or ready. -/
inductive TimerEvent where
  | sysTimeout (msecs : UInt32) (handler : ℕ)
  | sysUntimeout (handler : ℕ)
  | mboxFetch (k : Option ℕ)
  | work (k : ℕ)

namespace Timers

def start (osTime : UInt32) : Timers := ⟨[], osTime, 0, 0, 0, [], [], []⟩

/-- `k` ticks of waiting go by, `ms` of the clock. -/
def pass (s : Timers) (k ms : ℕ) : Timers :=
  { s with
    osTime := s.osTime + UInt32.ofNat k
    ticks := s.ticks + k
    turns := s.turns + 1
    clock := s.clock + ms }

def sysTimeout (s : Timers) (msecs : UInt32) (handler : ℕ) : Timers :=
  if s.list.length < mempNumSysTimeout then
    { s with
      list := place msecs.toNat handler s.list
      started := s.started ++ [(s.clock + msecs.toNat, handler)] }
  else s

def sysUntimeout (s : Timers) (handler : ℕ) : Timers :=
  { s with
    list := cancel (· == handler) s.list
    removed := s.removed ++ ((dues s.clock s.list).find? (·.2 == handler)).toList }

/-- The first timer is called, `k` ticks later. -/
def call (s : Timers) (k : ℕ) : Timers :=
  match s.list with
  | [] => s
  | (d, handler) :: rest =>
      { s.pass k d with
        list := rest
        called := s.called ++ [(s.clock + d, handler)] }

/-- A message is fetched behind `k` ticks; `late` of them came when the time had run out. -/
def receive (s : Timers) (k late : ℕ) : Timers :=
  match s.list with
  | [] => s.pass k (5 * k)
  | (d, handler) :: rest =>
      let time := (fetchTime s.osTime (s.osTime + UInt32.ofNat k)).toNat
      { s.pass (k - late) (min time d) with
        list := ((if time < d then d - time else 0), handler) :: rest
        osTime := s.osTime + UInt32.ofNat k }

def mboxFetch (s : Timers) (k : Option ℕ) : Timers :=
  match s.list with
  | [] =>
      match k with
      | some k => s.receive k 0
      | none => s
  | (d, _) :: _ =>
      if d > 0 then
        let limit := (ucosTimeout (UInt32.ofNat d)).toNat
        match k with
        | some k => s.receive k (if limit = 0 then 0 else k - limit)
        | none => if limit = 0 then s else s.call limit
      else s.call 0

def step (s : Timers) : TimerEvent → Timers
  | .sysTimeout msecs handler => s.sysTimeout msecs handler
  | .sysUntimeout handler => s.sysUntimeout handler
  | .mboxFetch k => s.mboxFetch k
  | .work k => { s with osTime := s.osTime + UInt32.ofNat k }

def run (osTime : UInt32) (events : List TimerEvent) : Timers := events.foldl step (start osTime)

/-- The timers that are running, with their due times. -/
def pending (s : Timers) : List (ℕ × ℕ) := dues s.clock s.list

/-! ### Every timer is called once, at its time -/

/-- The timers started were called, taken out, or are running; those called were in the order of
    their times. The times in the list, and so their sums up to any timer, are below 2^32. -/
structure Kept (s : Timers) : Prop where
  perm : (s.called ++ s.removed ++ s.pending).Perm s.started
  sorted : s.called.Pairwise fun p q => p.1 ≤ q.1
  called_le : ∀ p ∈ s.called, p.1 ≤ s.clock
  sum_lt : ∀ p ∈ s.pending, p.1 < s.clock + 2 ^ 32

variable {s : Timers}

theorem kept_start (osTime : UInt32) : (start osTime).Kept := 
  ⟨List.Perm.nil, List.Pairwise.nil, by simp [start], by simp [start, pending, dues]⟩

theorem Kept.sysTimeout (h : s.Kept) (msecs : UInt32) (handler : ℕ) :
    (s.sysTimeout msecs handler).Kept := by
  rw [Timers.sysTimeout]
  split_ifs with hroom
  · refine ⟨?_, h.sorted, h.called_le, fun p hp => ?_⟩
    · simp only [pending, dues_place]
      have hinsert := List.perm_orderedInsert (fun p q : ℕ × ℕ => p.1 < q.1)
        (s.clock + msecs.toNat, handler)
        (dues s.clock s.list)
      refine (hinsert.append_left (s.called ++ s.removed)).trans ?_
      exact List.perm_middle.trans ((h.perm.cons _).trans (List.perm_append_singleton _ _).symm)
    · simp only [pending, dues_place, List.mem_orderedInsert] at hp
      rcases hp with rfl | hp
      · exact Nat.add_lt_add_left msecs.toNat_lt _
      · exact h.sum_lt p hp
  · exact h

theorem Kept.sysUntimeout (h : s.Kept) (handler : ℕ) : (s.sysUntimeout handler).Kept := by
  refine ⟨?_, h.sorted, h.called_le, fun p hp => ?_⟩
  · have htaken := perm_eraseP (fun q : ℕ × ℕ => q.2 == handler) (dues s.clock s.list)
    have hperm := (htaken.append_left (s.called ++ s.removed)).trans h.perm
    simpa [Timers.sysUntimeout, pending, dues_cancel] using hperm
  · simp only [pending, Timers.sysUntimeout, dues_cancel] at hp
    exact h.sum_lt p (List.mem_of_mem_eraseP hp)

theorem Kept.call (h : s.Kept) (k : ℕ) : (s.call k).Kept := by
  rw [Timers.call]
  split
  case h_1 => exact h
  case h_2 d handler rest hlist =>
    have hperm := h.perm
    have hsum := h.sum_lt
    rw [pending, hlist, dues] at hperm hsum
    refine ⟨?_, ?_, ?_, fun p hp => ?_⟩
    · have hmiddle : (s.removed ++ (s.clock + d, handler) :: dues (s.clock + d) rest).Perm
          ((s.clock + d, handler) :: (s.removed ++ dues (s.clock + d) rest)) := List.perm_middle
      refine List.Perm.trans ?_ hperm
      simp only [pending, pass, List.append_assoc, List.singleton_append]
      exact hmiddle.symm.append_left s.called
    · refine List.pairwise_append.mpr ⟨h.sorted, List.pairwise_singleton _ _, fun p hp q hq => ?_⟩
      rw [List.mem_singleton.mp hq]
      exact (h.called_le p hp).trans (Nat.le_add_right _ _)
    · intro p hp
      rcases List.mem_append.mp hp with hp | hp
      · exact (h.called_le p hp).trans (Nat.le_add_right _ _)
      · rw [List.mem_singleton.mp hp]
        rfl
    · have hlt := hsum p (List.mem_cons_of_mem _ hp)
      simp only [pass]
      omega

theorem pending_receive (s : Timers) (k late : ℕ) : (s.receive k late).pending = s.pending := by
  rw [receive]
  split
  case h_1 hlist => simp [pending, pass, hlist, dues]
  case h_2 d handler rest hlist =>
    have hleft (time : ℕ) : (if time < d then d - time else 0) = d - time := by split_ifs <;> omega
    simp only [pending, pass, hlist, hleft, dues_pass]

theorem Kept.receive (h : s.Kept) (k late : ℕ) : (s.receive k late).Kept := by
  obtain ⟨hstarted, hremoved, hcalled, hclock⟩ : (s.receive k late).started = s.started ∧
      (s.receive k late).removed = s.removed ∧ (s.receive k late).called = s.called ∧
      s.clock ≤ (s.receive k late).clock := by
    rw [Timers.receive]
    split <;> exact ⟨rfl, rfl, rfl, Nat.le_add_right _ _⟩
  refine ⟨?_, hcalled ▸ h.sorted, fun p hp => ?_, fun p hp => ?_⟩
  · rw [hcalled, hremoved, pending_receive, hstarted]
    exact h.perm
  · rw [hcalled] at hp
    exact (h.called_le p hp).trans hclock
  · rw [pending_receive] at hp
    exact (h.sum_lt p hp).trans_le (Nat.add_le_add_right hclock _)

/-- A turn waits on, or takes a message, or calls the first timer. -/
theorem mboxFetch_cases (s : Timers) (k : Option ℕ) :
    s.mboxFetch k = s ∨ (∃ n late, s.mboxFetch k = s.receive n late) ∨
    ∃ n, s.mboxFetch k = s.call n := by
  rcases hlist : s.list with _ | ⟨⟨d, handler⟩, rest⟩
  · cases k with
    | none => exact .inl (by simp [mboxFetch, hlist])
    | some n => exact .inr (.inl ⟨n, 0, by simp [mboxFetch, hlist]⟩)
  · by_cases hd : d > 0
    · cases k with
      | some n =>
        have hreceive : ∃ late, s.mboxFetch (some n) = s.receive n late := by
          simp only [mboxFetch, hlist, if_pos hd, exists_apply_eq_apply']
        exact .inr (.inl ⟨n, hreceive⟩)
      | none =>
        by_cases hlimit : (ucosTimeout (UInt32.ofNat d)).toNat = 0
        · exact .inl (by simp [mboxFetch, hlist, hd, hlimit])
        · exact .inr (.inr ⟨(ucosTimeout (UInt32.ofNat d)).toNat,
            by simp [mboxFetch, hlist, hd, hlimit]⟩)
    · exact .inr (.inr ⟨0, by simp [mboxFetch, hlist, hd]⟩)

theorem Kept.step (h : s.Kept) (e : TimerEvent) : (s.step e).Kept := by
  cases e with
  | sysTimeout msecs handler => exact h.sysTimeout msecs handler
  | sysUntimeout handler => exact h.sysUntimeout handler
  | mboxFetch k =>
    rw [Timers.step]
    rcases s.mboxFetch_cases k with heq | ⟨n, late, heq⟩ | ⟨n, heq⟩
    · rwa [heq]
    · rw [heq]
      exact h.receive n late
    · rw [heq]
      exact h.call n
  | work k => exact ⟨h.perm, h.sorted, h.called_le, h.sum_lt⟩

/-- Every timer is called once, when the clock shows its due time, and in the order of these times,
    unless it is taken out. -/
theorem called_run (osTime : UInt32) (events : List TimerEvent) : (run osTime events).Kept :=
  Run.foldl_inv Kept (fun _ e h => h.step e) events _ (kept_start osTime)

/-! ### The clock of the timers and that of the kernel -/

theorem ucosTimeout_eq {d : ℕ} (hpos : 0 < d) (hlt : d < 327680) :
    (ucosTimeout (UInt32.ofNat d)).toNat = max 1 (d / 5) := by
  have hd : (UInt32.ofNat d).toNat = d := by
    rw [UInt32.toNat_ofNat']
    omega
  have hne : UInt32.ofNat d ≠ 0 := fun hzero => by
    rw [hzero] at hd
    exact hpos.ne hd
  have hticks : (UInt32.ofNat d * osTicksPerSec / 1000).toNat = d / 5 := by
    rw [UInt32.toNat_div, UInt32.toNat_mul, hd, osTicksPerSec]
    simp only [UInt32.reduceToNat]
    omega
  simp only [ucosTimeout, if_pos hne]
  split_ifs with hone
  · rw [UInt32.lt_iff_toNat_lt, hticks, UInt32.toNat_one] at hone
    rw [UInt32.toNat_toUInt16, UInt32.toNat_one]
    omega
  · rw [UInt32.lt_iff_toNat_lt, hticks, UInt32.toNat_one] at hone
    rw [UInt32.toNat_toUInt16, hticks]
    omega

theorem fetchTime_eq {t : UInt32} {k : ℕ} (hpos : 0 < k) (hlt : k < 65536) (ht : t.toNat + k < 2 ^ 32) :
    (fetchTime t (t + UInt32.ofNat k)).toNat = 5 * k + 1 := by
  have hk : (UInt32.ofNat k).toNat = k := by
    rw [UInt32.toNat_ofNat']
    omega
  have hlater : t + UInt32.ofNat k > t := by
    rw [gt_iff_lt, UInt32.lt_iff_toNat_lt, UInt32.toNat_add, hk, Nat.mod_eq_of_lt ht]
    omega
  have hticks : t + UInt32.ofNat k - t = UInt32.ofNat k := by
    rw [UInt32.add_comm, UInt32.add_sub_cancel]
  rw [fetchTime, if_pos hlater, hticks, UInt32.toNat_add, UInt32.toNat_div, UInt32.toNat_mul, hk,
    osTicksPerSec]
  simp only [UInt32.reduceToNat]
  rw [Nat.mod_eq_of_lt (by omega : k * 1000 < 2 ^ 32), (by omega : k * 1000 / 200 = 5 * k),
    Nat.mod_eq_of_lt (by omega)]

/-- For a message that is fetched in the tick in which the wait began. -/
theorem fetchTime_self (t : UInt32) : (fetchTime t t).toNat = 21474832 := by
  have hsum : 0xffffffff - t + t = 0xffffffff := UInt32.sub_add_cancel _ _
  rw [fetchTime, hsum, if_neg (UInt32.lt_irrefl t)]
  decide

/-- No timer runs for 327680 ms or more, and in each turn the two clocks part by at most 4 ms. -/
structure Timely (s : Timers) : Prop where
  soon : ∀ p ∈ s.pending, p.1 < s.clock + 327680
  fast : s.clock ≤ 5 * s.ticks + 4 * s.turns
  slow : 5 * s.ticks ≤ s.clock + 4 * s.turns

/-- The times are not too long for `OSQPend`; and while a timer runs no message is fetched in the
    tick in which the wait began, or 327680 ms after it, or when `OSTime` has wrapped. -/
def Plain (s : Timers) : TimerEvent → Prop
  | .sysTimeout msecs _ => msecs.toNat < 327680
  | .sysUntimeout _ => True
  | .mboxFetch none => True
  | .mboxFetch (some k) => s.list = [] ∨ (0 < k ∧ k < 65536 ∧ s.osTime.toNat + k < 2 ^ 32)
  | .work _ => True

theorem Timely.sysTimeout (h : s.Timely) {msecs : UInt32} (hmsecs : msecs.toNat < 327680)
    (handler : ℕ) :
    (s.sysTimeout msecs handler).Timely := by
  rw [Timers.sysTimeout]
  split_ifs
  · refine ⟨fun p hp => ?_, h.fast, h.slow⟩
    simp only [pending, dues_place, List.mem_orderedInsert] at hp
    rcases hp with rfl | hp
    · simpa using hmsecs
    · exact h.soon p hp
  · exact h

theorem Timely.sysUntimeout (h : s.Timely) (handler : ℕ) : (s.sysUntimeout handler).Timely := by
  refine ⟨fun p hp => ?_, h.fast, h.slow⟩
  simp only [pending, Timers.sysUntimeout, dues_cancel] at hp
  exact h.soon p (List.mem_of_mem_eraseP hp)

theorem Timely.pass_le (h : s.Timely) {t : Timers} (hpending : ∀ p ∈ t.pending, p ∈ s.pending)
    {k ms : ℕ}
    (hclock : t.clock = s.clock + ms) (hticks : t.ticks = s.ticks + k) (hturns : t.turns = s.turns + 1)
    (hfast : ms ≤ 5 * k + 4) (hslow : 5 * k ≤ ms + 4) : t.Timely := by
  obtain ⟨hsoon, hf, hs⟩ := h
  refine ⟨fun p hp => ?_, by omega, by omega⟩
  have := hsoon p (hpending p hp)
  omega

theorem Timely.call (h : s.Timely) {d handler k : ℕ} {rest : List (ℕ × ℕ)}
    (hlist : s.list = (d, handler) :: rest)
    (hfast : d ≤ 5 * k + 4) (hslow : 5 * k ≤ d + 4) : (s.call k).Timely := by
  simp only [Timers.call, hlist]
  refine h.pass_le (fun p hp => ?_) rfl rfl rfl hfast hslow
  rw [pending, hlist, dues]
  exact List.mem_cons_of_mem _ hp

theorem Timely.receive (h : s.Timely) {d handler k m : ℕ} {rest : List (ℕ × ℕ)}
    (hlist : s.list = (d, handler) :: rest) (hpos : 0 < k) (hlt : k < 65536)
    (hwrap : s.osTime.toNat + k < 2 ^ 32)
    (hfast : d ≤ 5 * m + 4) (hslow : 5 * m ≤ d + 4) : (s.receive k (k - m)).Timely := by
  have hpending := s.pending_receive k (k - m)
  simp only [Timers.receive, hlist] at hpending ⊢
  refine h.pass_le (fun p hp => hpending ▸ hp) rfl rfl rfl ?_ ?_ <;>
    rw [fetchTime_eq hpos hlt hwrap] <;> omega

theorem Timely.mboxFetch (h : s.Timely) {k : Option ℕ} (hplain : s.Plain (.mboxFetch k)) :
    (s.mboxFetch k).Timely := by
  rcases hlist : s.list with _ | ⟨⟨d, handler⟩, rest⟩
  · cases k with
    | none => simpa [Timers.mboxFetch, hlist] using h
    | some n =>
      simp only [Timers.mboxFetch, Timers.receive, hlist]
      refine h.pass_le (fun p hp => ?_) rfl rfl rfl (by omega) (by omega)
      simp [pending, pass, hlist, dues] at hp
  · have hd : d < 327680 := by
      have := h.soon (s.clock + d, handler) (by simp [pending, hlist, dues])
      omega
    by_cases hpos : d > 0
    · have hlimit := ucosTimeout_eq hpos hd
      have hne : (ucosTimeout (UInt32.ofNat d)).toNat ≠ 0 := by omega
      cases k with
      | none =>
        have hcall := h.call hlist (k := (ucosTimeout (UInt32.ofNat d)).toNat) (by omega) (by omega)
        simpa [Timers.mboxFetch, hlist, hpos, hne] using hcall
      | some n =>
        obtain ⟨hn, hlt, hwrap⟩ := hplain.resolve_left (by simp [hlist])
        have hreceive := h.receive hlist (m := (ucosTimeout (UInt32.ofNat d)).toNat) hn hlt hwrap
          (by omega)
          (by omega)
        simpa [Timers.mboxFetch, hlist, hpos, hne] using hreceive
    · simpa [Timers.mboxFetch, hlist, hpos] using h.call hlist (k := 0) (by omega) (by omega)

theorem timely_start (osTime : UInt32) : (start osTime).Timely :=
  ⟨by simp [start, pending, dues], le_rfl, le_rfl⟩

theorem Timely.step (h : s.Timely) {e : TimerEvent} (hplain : s.Plain e) : (s.step e).Timely := by
  cases e with
  | sysTimeout msecs handler => exact h.sysTimeout hplain handler
  | sysUntimeout handler => exact h.sysUntimeout handler
  | mboxFetch k => exact h.mboxFetch hplain
  | work k => exact ⟨h.soon, h.fast, h.slow⟩

/-- As long as no message is fetched in the tick in which the wait began, the clock of the timers
    and that of the kernel part by 4 ms a turn at most. -/
theorem clock_run (osTime : UInt32) (events : List TimerEvent)
    (hplain : ∀ p ∈ Run.steps step (start osTime) events, p.1.Plain p.2) :
    (run osTime events).clock ≤ 5 * (run osTime events).ticks + 4 * (run osTime events).turns ∧
      5 * (run osTime events).ticks ≤ (run osTime events).clock + 4 * (run osTime events).turns := by
  have htimely : (run osTime events).Timely :=
    Run.foldl_inv_of_steps Timely (fun _ _ h hp => h.step hp) events _ (timely_start osTime) hplain
  exact ⟨htimely.fast, htimely.slow⟩

theorem clock_run_arp : (run 0 [.sysTimeout 5000 1, .mboxFetch (some 3), .mboxFetch none]).clock ≤
    5 * (run 0 [.sysTimeout 5000 1, .mboxFetch (some 3), .mboxFetch none]).ticks +
      4 * (run 0 [.sysTimeout 5000 1, .mboxFetch (some 3), .mboxFetch none]).turns :=
  (clock_run 0 [.sysTimeout 5000 1, .mboxFetch (some 3), .mboxFetch none] (by
    simp only [Run.steps, List.forall_mem_cons]
    exact ⟨(by decide : (5000 : UInt32).toNat < 327680), .inr (by decide), trivial, by simp⟩)).1

/-! ### Messages that are fetched at once -/

/-- A turn with a message that is there, the turn after it, and the handler starting its timer again. -/
def burst (msecs : UInt32) (handler : ℕ) : List TimerEvent :=
  [.mboxFetch (some 0), .mboxFetch (some 0), .sysTimeout msecs handler]

def bursts (msecs : UInt32) (handler n : ℕ) : List TimerEvent :=
  (List.replicate n (burst msecs handler)).flatten

theorem burst_step {msecs : UInt32} {handler : ℕ} (hpos : 0 < msecs.toNat)
    (hle : msecs.toNat ≤ 21474832)
    (hlist : s.list = [(msecs.toNat, handler)]) :
    ((burst msecs handler).foldl step s).list = [(msecs.toNat, handler)] ∧
      ((burst msecs handler).foldl step s).ticks = s.ticks ∧
      ((burst msecs handler).foldl step s).osTime = s.osTime ∧
      ((burst msecs handler).foldl step s).clock = s.clock + msecs.toNat ∧
      ((burst msecs handler).foldl step s).called = s.called ++ [(s.clock + msecs.toNat, handler)] := by
  have htime : (fetchTime s.osTime (s.osTime + UInt32.ofNat 0)).toNat = 21474832 := by
    have hzero : s.osTime + UInt32.ofNat 0 = s.osTime := UInt32.add_zero _
    rw [hzero, fetchTime_self]
  have hfirst : s.mboxFetch (some 0) = { s.pass 0 msecs.toNat with list := [(0, handler)] } := by
    simp only [mboxFetch, receive, hlist, htime, if_pos hpos, Nat.zero_sub, ite_self, min_eq_right hle,
      if_neg (Nat.not_lt.mpr hle)]
    rfl
  have hsecond : (s.mboxFetch (some 0)).mboxFetch (some 0) =
      { (s.pass 0 msecs.toNat).pass 0 0 with
        list := []
        called := s.called ++ [(s.clock + msecs.toNat, handler)] } := by
    rw [hfirst]
    simp [mboxFetch, call, pass]
  have hthird : (burst msecs handler).foldl step s =
      ((s.mboxFetch (some 0)).mboxFetch (some 0)).sysTimeout msecs handler := rfl
  have hzero : s.osTime + UInt32.ofNat 0 = s.osTime := UInt32.add_zero _
  rw [hthird, hsecond]
  simp only [pass, hzero]
  simp [sysTimeout, place, mempNumSysTimeout]

theorem bursts_steps {msecs : UInt32} {handler : ℕ} (hpos : 0 < msecs.toNat)
    (hle : msecs.toNat ≤ 21474832) :
    ∀ (n : ℕ) (s : Timers), s.list = [(msecs.toNat, handler)] →
      ((bursts msecs handler n).foldl step s).called.length = s.called.length + n ∧
        ((bursts msecs handler n).foldl step s).ticks = s.ticks ∧
        ((bursts msecs handler n).foldl step s).osTime = s.osTime ∧
        ((bursts msecs handler n).foldl step s).clock = s.clock + n * msecs.toNat
  | 0, s, _ => by simp [bursts]
  | n + 1, s, hlist => by
      obtain ⟨hlist', hticks, htime, hclock, hcalled⟩ := burst_step hpos hle hlist
      obtain ⟨ih, ihticks, ihtime, ihclock⟩ := bursts_steps hpos hle n _ hlist'
      rw [bursts, List.replicate_succ, List.flatten_cons, List.foldl_append, ← bursts]
      refine ⟨?_, ihticks.trans hticks, ihtime.trans htime, ?_⟩
      · rw [ih, hcalled, List.length_append, List.length_singleton]
        omega
      · rw [ihclock, hclock, Nat.add_mul]
        omega

/-- With a message fetched at once in each turn a timer that is alone in the list is called for
    every message, though `OSTime` does not move. -/
theorem burst_run (osTime msecs : UInt32) (handler n : ℕ) (hpos : 0 < msecs.toNat)
    (hle : msecs.toNat ≤ 21474832) :
    (run osTime (.sysTimeout msecs handler :: bursts msecs handler n)).called.length = n ∧
      (run osTime (.sysTimeout msecs handler :: bursts msecs handler n)).ticks = 0 ∧
      (run osTime (.sysTimeout msecs handler :: bursts msecs handler n)).osTime = osTime ∧
      (run osTime (.sysTimeout msecs handler :: bursts msecs handler n)).clock = n * msecs.toNat := by
  have hlist : ((start osTime).sysTimeout msecs handler).list = [(msecs.toNat, handler)] := rfl
  obtain ⟨hcalled, hticks, htime, hclock⟩ := bursts_steps hpos hle n _ hlist
  rw [run, List.foldl_cons]
  exact ⟨hcalled.trans (Nat.zero_add n), hticks.trans rfl, htime.trans rfl,
    hclock.trans (Nat.zero_add _)⟩

theorem burst_run_tcp : (run 0 (.sysTimeout 250 1 :: bursts 250 1 1000)).called.length = 1000 :=
  (burst_run 0 250 1 1000 (by decide) (by decide)).1

end Timers

end VectorFence
