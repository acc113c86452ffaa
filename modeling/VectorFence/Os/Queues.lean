import VectorFence.Lib.Handover

/-! The queues and mailboxes of µC/OS-II, apart from the tasks that wait for them: a ring of
    pointers between `OSQStart` and `OSQEnd`, or one pointer that is not NULL. -/

namespace VectorFence

open Handover

/-- `OS_Q`. The entries lie behind `out`. -/
structure OsQ where
  mem : ℕ → ℕ
  size : ℕ
  inn : ℕ
  out : ℕ
  entries : ℕ
  out_lt : out < size
  entries_le : entries ≤ size
  inn_eq : inn = slot size out entries

/-- `OSEventPtr`: the message of a mailbox, 0 when there is none, or the queue. -/
inductive OsEventPtr where
  | mbox (pmsg : ℕ)
  | q (pq : OsQ)

namespace OsQ

/-- `OSQCreate`. -/
def create (start : ℕ → ℕ) (size : ℕ) (h : 0 < size) : OsQ where
  mem := start
  size := size
  inn := 0
  out := 0
  entries := 0
  out_lt := h
  entries_le := Nat.zero_le _
  inn_eq := (slot_zero h).symm

/-- `++` on `OSQIn` or `OSQOut`, back to `OSQStart` at `OSQEnd`. -/
def next (pq : OsQ) (i : ℕ) : ℕ := if i + 1 = pq.size then 0 else i + 1

theorem next_eq (pq : OsQ) {i : ℕ} (h : i < pq.size) : pq.next i = slot pq.size i 1 := by
  rw [next, slot]
  split_ifs with heq
  · rw [heq, Nat.mod_self]
  · rw [Nat.mod_eq_of_lt (by omega)]

/-- A message from the queue, if it has one. -/
def get (pq : OsQ) : Option (ℕ × OsQ) :=
  if h : 0 < pq.entries then
    some (pq.mem pq.out, { pq with
      out := pq.next pq.out
      entries := pq.entries - 1
      out_lt := by
        rw [pq.next_eq pq.out_lt]
        exact slot_lt pq.out_lt 1
      entries_le := (Nat.sub_le _ _).trans pq.entries_le
      inn_eq := by
        rw [pq.next_eq pq.out_lt, slot_slot, Nat.add_sub_cancel' h]
        exact pq.inn_eq })
  else none

/-- The queue with one message more, unless it is full. -/
def put (pq : OsQ) (pmsg : ℕ) : Option OsQ :=
  if h : pq.entries ≥ pq.size then none
  else
    some { pq with
      mem := Function.update pq.mem pq.inn pmsg
      inn := pq.next pq.inn
      entries := pq.entries + 1
      entries_le := Nat.lt_of_not_le h
      inn_eq := by
        have hlt : pq.inn < pq.size := pq.inn_eq ▸ slot_lt pq.out_lt _
        rw [pq.next_eq hlt, pq.inn_eq, slot_slot] }

/-- The messages, the oldest first. -/
def messages (pq : OsQ) : List ℕ := (List.range pq.entries).map fun k => pq.mem (slot pq.size pq.out k)

theorem row (pq : OsQ) : Row pq.size pq.mem pq.out pq.messages :=
  ⟨pq.out_lt, by simpa [messages] using pq.entries_le, fun k h => by simp [messages]⟩

@[simp]
theorem length_messages (pq : OsQ) : pq.messages.length = pq.entries := by simp [messages]

theorem messages_eq {pq : OsQ} {l : List ℕ} (h : Row pq.size pq.mem pq.out l)
    (hlen : l.length = pq.entries) :
    pq.messages = l :=
  List.ext_getElem (by simp [hlen]) fun k _ hk => by simp [messages, ← h.get k hk]

theorem get_eq_none {pq : OsQ} : pq.get = none ↔ pq.messages = [] := by
  rw [get, ← List.length_eq_zero_iff, length_messages]
  split_ifs with h
  · exact iff_of_false (by simp) (by omega)
  · exact iff_of_true rfl (by omega)

theorem get_eq_some {pq pq' : OsQ} {m : ℕ} (h : pq.get = some (m, pq')) :
    pq.messages = m :: pq'.messages := by
  rw [get] at h
  split_ifs at h with hpos
  rw [Option.some_inj, Prod.mk.injEq] at h
  obtain ⟨rfl, rfl⟩ := h
  obtain ⟨x, l, hl⟩ := List.exists_cons_of_ne_nil
    (List.ne_nil_of_length_pos (by rwa [length_messages] : 0 < pq.messages.length))
  have hrow := pq.row
  rw [hl] at hrow
  obtain ⟨hx, hrest⟩ := hrow.take
  have hlen := pq.length_messages
  rw [hl, List.length_cons] at hlen
  rw [← pq.next_eq pq.out_lt] at hrest
  rw [hl, ← hx, messages_eq hrest (by simp only; omega)]

theorem put_eq_some {pq pq' : OsQ} {m : ℕ} (h : pq.put m = some pq') :
    pq'.messages = pq.messages ++ [m] := by
  rw [put] at h
  split_ifs at h with hfull
  rw [Option.some_inj] at h
  subst h
  have hrow := pq.row.put (by rw [length_messages]; omega) m
  rw [length_messages, ← pq.inn_eq] at hrow
  exact messages_eq hrow (by simp)

end OsQ

namespace OsEventPtr

/-- `OSMboxCreate` with no message, or `OSQCreate`. -/
def create : ℕ → OsEventPtr
  | 0 => mbox 0
  | size + 1 => q (OsQ.create (fun _ => 0) (size + 1) (Nat.succ_pos size))

def get : OsEventPtr → Option (ℕ × OsEventPtr)
  | mbox pmsg => if pmsg ≠ 0 then some (pmsg, mbox 0) else none
  | q pq => pq.get.map fun r => (r.1, q r.2)

def put (pmsg : ℕ) : OsEventPtr → Option OsEventPtr
  | mbox old => if old ≠ 0 then none else some (mbox pmsg)
  | q pq => (pq.put pmsg).map q

/-- The message can be told from no message. -/
def Takes (pmsg : ℕ) : OsEventPtr → Prop
  | mbox _ => pmsg ≠ 0
  | q _ => True

instance (pmsg : ℕ) : (s : OsEventPtr) → Decidable (s.Takes pmsg)
  | mbox _ => inferInstanceAs (Decidable (pmsg ≠ 0))
  | q _ => inferInstanceAs (Decidable True)

def messages : OsEventPtr → List ℕ
  | mbox pmsg => if pmsg ≠ 0 then [pmsg] else []
  | q pq => pq.messages

variable {s s' : OsEventPtr} {m : ℕ}

theorem messages_create (size : ℕ) : (create size).messages = [] := by
  cases size with
  | zero | succ size => rfl

theorem get_eq_none : s.get = none ↔ s.messages = [] := by
  cases s with
  | mbox pmsg =>
    rw [get, messages]
    split_ifs <;> simp
  | q pq => rw [get, Option.map_eq_none_iff, OsQ.get_eq_none, messages]

theorem get_eq_some (h : s.get = some (m, s')) : s.messages = m :: s'.messages := by
  cases s with
  | mbox pmsg =>
    rw [get] at h
    split_ifs at h with hne
    rw [Option.some_inj, Prod.mk.injEq] at h
    obtain ⟨rfl, rfl⟩ := h
    simp [messages, hne]
  | q pq =>
    rw [get, Option.map_eq_some_iff] at h
    obtain ⟨r, hr, heq⟩ := h
    rw [Prod.mk.injEq] at heq
    obtain ⟨rfl, rfl⟩ := heq
    exact OsQ.get_eq_some hr

theorem put_eq_some (h : s.put m = some s') (hm : s.Takes m) : s'.messages = s.messages ++ [m] := by
  cases s with
  | mbox old =>
    rw [put] at h
    split_ifs at h with hne
    rw [Option.some_inj] at h
    subst h
    rw [Takes] at hm
    simp [messages, hm, not_not.mp hne]
  | q pq =>
    rw [put, Option.map_eq_some_iff] at h
    obtain ⟨pq', hput, rfl⟩ := h
    exact OsQ.put_eq_some hput

/-- NULL leaves an empty mailbox empty. -/
theorem put_of_not_takes (h : s.put m = some s') (hm : ¬s.Takes m) : s'.messages = s.messages := by
  cases s with
  | mbox old =>
    rw [put] at h
    split_ifs at h with hne
    rw [Option.some_inj] at h
    rw [Takes] at hm
    rw [← h, messages, messages, if_neg hm, if_neg hne]
  | q pq => exact absurd trivial hm

end OsEventPtr

end VectorFence
