import VectorFence.Iic.Basic
import VectorFence.Lib.Ends
import VectorFence.Lib.Run

/-! The mutex of the I2C bus. A function is `Quiet` when it does not touch the mutex, `Posts` when
    it gives it back on every way out, and `Brackets` when it takes it and gives it back; the rules
    for these follow the shape of the functions.

        Brackets 1   pend ─▶ ( Quiet ─▶ Quiet ─▶ … ─▶ post )
                                └─ no acknowledge ─▶ stop ─▶ post

    Only `LM75_ReadTemp` has a way out without a post. -/

namespace VectorFence

namespace Iic

variable {dev : IicSlaves} {α β : Type} {h : Bool} {l : List IicEvent}

/-! ### What a function does with the mutex -/

/-- The pends and posts of a trace. -/
def locks (trace : List IicEvent) : List IicEvent := trace.filter fun e => e = .pend ∨ e = .post

/-- The mutex is held or free, after these pends and posts. -/
def At (held : Bool) (l : List IicEvent) (b : IicBus) : Prop := b.held = held ∧ locks b.trace = l

theorem locks_concat (trace : List IicEvent) (e : IicEvent) :
    locks (trace ++ [e]) = locks trace ++ if e = .pend ∨ e = .post then [e] else [] := by
  rw [locks, locks, List.filter_append, List.filter_cons, List.filter_nil]
  simp only [decide_eq_true_eq]

/-- The function does not touch the mutex. -/
def Quiet (m : Iic α) : Prop := ∀ h l, Ends (At h l) m fun _ => At h l

/-- Called with the mutex held, the function gives it back, once. -/
def Posts (m : Iic α) : Prop := ∀ l, Ends (At true l) m fun _ => At false (l ++ [.post])

/-- Called with the mutex free, the function takes it and gives it back, `n` times. -/
def Brackets (n : ℕ) (m : Iic α) : Prop :=
  ∀ l, Ends (At false l) m fun _ => At false (l ++ (List.replicate n [.pend, .post]).flatten)

theorem quiet_emit {e : IicEvent} (he : ¬(e = .pend ∨ e = .post)) : Quiet (emit e) := by
  refine fun h l => Ends.modify fun b hb => ⟨hb.1, ?_⟩
  rw [locks_concat, if_neg he, List.append_nil, hb.2]

theorem Quiet.get : Quiet get := fun _ _ => Ends.get fun _ hb => hb

theorem Quiet.pure (a : α) : Quiet (pure a) := fun _ _ => Ends.pure fun _ hb => hb

theorem Quiet.bind {m : Iic α} {f : α → Iic β} (hm : Quiet m) (hf : ∀ a, Quiet (f a)) :
    Quiet (m >>= f) := fun h l => Ends.bind (hm h l) fun a => hf a h l

theorem Quiet.ite {c : Prop} [Decidable c] {m m' : Iic α} (hm : Quiet m) (hm' : Quiet m') :
    Quiet (if c then m else m') := fun h l => Ends.ite (fun _ => hm h l) fun _ => hm' h l

/-- A quiet part before a function that gives the mutex back. -/
theorem Quiet.posts {m : Iic α} {f : α → Iic β} (hm : Quiet m) (hf : ∀ a, Posts (f a)) :
    Posts (m >>= f) := fun l => Ends.bind (hm true l) fun a => hf a l

theorem Posts.ite {c : Prop} [Decidable c] {m m' : Iic α} (hm : Posts m) (hm' : Posts m') :
    Posts (if c then m else m') := fun l => Ends.ite (fun _ => hm l) fun _ => hm' l

theorem posts_post : Posts osMutexPost := by
  refine fun l => Ends.modify fun b hb => ⟨rfl, ?_⟩
  rw [locks_concat, if_pos (by decide), hb.2]

/-- Giving the mutex back and returning. -/
theorem posts_return (a : α) : Posts (osMutexPost >>= fun _ => Pure.pure a) :=
  fun l => Ends.bind (posts_post l) fun _ => Ends.pure fun _ hb => hb

/-- Taking the mutex before a function that gives it back. -/
theorem Posts.brackets {f : Unit → Iic α} (hf : Posts (f ())) : Brackets 1 (osMutexPend >>= f) := by
  have hpend (l : List IicEvent) : Ends (At false l) osMutexPend fun _ => At true (l ++ [.pend]) := by
    intro b hb
    refine ⟨(), { held := true, trace := b.trace ++ [.pend] }, if_neg (by simp [hb.1]), rfl, ?_⟩
    rw [locks_concat, if_pos (by decide), hb.2]
  intro l
  refine Ends.bind (hpend l) fun _ => (hf _).imp (fun _ hb => hb) fun _ b hb => ?_
  rwa [List.append_assoc] at hb

theorem Brackets.pure (a : α) : Brackets 0 (pure a) :=
  fun l => Ends.pure fun b hb => by rwa [List.replicate_zero, List.flatten_nil, List.append_nil]

theorem Brackets.bind {n k : ℕ} {m : Iic α} {f : α → Iic β} (hm : Brackets n m)
    (hf : ∀ a, Brackets k (f a)) : Brackets (n + k) (m >>= f) := by
  refine fun l => Ends.bind (hm l) fun a => (hf a _).imp (fun _ hb => hb) fun _ b hb => ?_
  rwa [List.append_assoc, ← List.flatten_append, List.replicate_append_replicate] at hb

/-! ### The functions on the bus -/

theorem quiet_start : Quiet iicStart := quiet_emit (by decide)

theorem quiet_stop : Quiet iicStop := quiet_emit (by decide)

theorem quiet_send (txd : UInt8) : Quiet (iicSendByte txd) := quiet_emit (by simp)

theorem quiet_waitAck : Quiet (iicWaitAck dev) :=
  Quiet.get.bind fun _ => (quiet_emit (by simp)).bind fun _ =>
    (quiet_stop.bind fun _ => Quiet.pure true).ite (Quiet.pure false)

theorem quiet_readByte (ack : Bool) : Quiet (iicReadByte dev ack) :=
  Quiet.get.bind fun _ => (quiet_emit (by simp)).bind fun _ => Quiet.pure _

theorem quiet_recvBytes : ∀ n, Quiet (recvBytes dev n)
  | 0 => (quiet_readByte false).bind fun _ => Quiet.pure _
  | n + 1 => (quiet_readByte true).bind fun _ => (quiet_recvBytes n).bind fun _ => Quiet.pure _

theorem quiet_sendBytes : ∀ wBuf, Quiet (sendBytes dev wBuf)
  | [] => Quiet.pure false
  | b :: wBuf => (quiet_send b).bind fun _ => quiet_waitAck.bind fun _ =>
      (Quiet.pure true).ite (quiet_sendBytes wBuf)

/-- Leaving after an acknowledge that did not come. -/
theorem posts_stop (a : α) : Posts (iicStop >>= fun _ => osMutexPost >>= fun _ => Pure.pure a) :=
  quiet_stop.posts fun _ => posts_return a

/-- A byte that the function goes on after, acknowledged or not. -/
theorem posts_sendIgnored (txd : UInt8) {f : Bool → Iic α} (hf : ∀ nack, Posts (f nack)) :
    Posts (iicSendByte txd >>= fun _ => iicWaitAck dev >>= f) :=
  (quiet_send txd).posts fun _ => quiet_waitAck.posts hf

/-- A byte whose acknowledge decides whether the function goes on. -/
theorem posts_sendChecked (txd : UInt8) {a : α} {m : Iic α} (hm : Posts m) :
    Posts (iicSendByte txd >>= fun _ => iicWaitAck dev >>= fun nack =>
      if nack = true then iicStop >>= fun _ => osMutexPost >>= fun _ => Pure.pure a else m) :=
  posts_sendIgnored txd fun _ => (posts_stop a).ite hm

theorem readOneByte_brackets (readAddr : UInt16) : Brackets 1 (at24cxxReadOneByte dev readAddr) := by
  refine Posts.brackets (quiet_start.posts fun _ => ?_)
  refine posts_sendIgnored _ fun _ => posts_sendIgnored _ fun _ => posts_sendIgnored _ fun _ => ?_
  refine quiet_start.posts fun _ => posts_sendIgnored _ fun _ => ?_
  exact (quiet_readByte false).posts fun temp => posts_stop temp

theorem writeOneByte_brackets (writeAddr : UInt16) (dataToWrite : UInt8) :
    Brackets 1 (at24cxxWriteOneByte dev writeAddr dataToWrite) := by
  refine Posts.brackets (quiet_start.posts fun _ => ?_)
  refine posts_sendIgnored _ fun _ => posts_sendIgnored _ fun _ => posts_sendIgnored _ fun _ => ?_
  exact posts_sendIgnored _ fun _ => quiet_stop.posts fun _ => posts_post

theorem read_brackets (readAddr : UInt16) : ∀ n, Brackets n (at24cxxRead dev readAddr n) := by
  intro n
  induction n generalizing readAddr with
  | zero => exact Brackets.pure _
  | succ n ih =>
    have hread : Brackets (1 + (n + 0)) (at24cxxRead dev readAddr (n + 1)) :=
      (readOneByte_brackets readAddr).bind fun _ => (ih _).bind fun _ => Brackets.pure _
    rwa [Nat.add_zero, Nat.add_comm 1 n] at hread

theorem write_brackets (writeAddr : UInt16) (pBuffer : List UInt8) :
    Brackets pBuffer.length (at24cxxWrite dev writeAddr pBuffer) := by
  induction pBuffer generalizing writeAddr with
  | nil => exact Brackets.pure _
  | cons b pBuffer ih =>
    have hwrite : Brackets (1 + pBuffer.length) (at24cxxWrite dev writeAddr (b :: pBuffer)) :=
      (writeOneByte_brackets writeAddr b).bind fun _ => ih _
    rwa [Nat.add_comm 1] at hwrite

theorem readLenByte_brackets (readAddr : UInt16) (temp : UInt32) (len : ℕ) :
    Brackets len (at24cxxReadLenByte dev readAddr temp len) := by
  induction len generalizing temp with
  | zero => exact Brackets.pure _
  | succ len ih =>
    have hread : Brackets (1 + len) (at24cxxReadLenByte dev readAddr temp (len + 1)) :=
      (readOneByte_brackets _).bind fun _ => ih _
    rwa [Nat.add_comm 1 len] at hread

theorem writeLenByte_brackets (writeAddr : UInt16) (dataToWrite : UInt32) (len : ℕ) :
    Brackets len (at24cxxWriteLenByte dev writeAddr dataToWrite len) := by
  induction len generalizing writeAddr dataToWrite with
  | zero => exact Brackets.pure _
  | succ len ih =>
    have hwrite : Brackets (1 + len) (at24cxxWriteLenByte dev writeAddr dataToWrite (len + 1)) :=
      (writeOneByte_brackets _ _).bind fun _ => ih _ _
    rwa [Nat.add_comm 1 len] at hwrite

theorem iicRead_brackets (slaveAddr readAddr : UInt8) (rBufSize : UInt16) :
    Brackets 1 (iicRead dev slaveAddr readAddr rBufSize) := by
  refine Posts.brackets (quiet_start.posts fun _ => ?_)
  refine posts_sendChecked _ (posts_sendChecked _ (quiet_start.posts fun _ => ?_))
  exact posts_sendChecked _ ((quiet_recvBytes _).posts fun rBuf => posts_stop _)

theorem iicWrite_brackets (slaveAddr writeAddr : UInt8) (wBuf : List UInt8) :
    Brackets 1 (iicWrite dev slaveAddr writeAddr wBuf) := by
  refine Posts.brackets (quiet_start.posts fun _ => ?_)
  refine posts_sendChecked _ (posts_sendChecked _ ?_)
  exact (quiet_sendBytes _).posts fun _ => (posts_stop _).ite (posts_stop _)

theorem setPointer_brackets (pointer : UInt8) : Brackets 1 (lm75SetPointer dev pointer) := by
  refine Posts.brackets (quiet_start.posts fun _ => ?_)
  exact posts_sendChecked _ (posts_sendChecked _ (posts_stop true))

/-! ### The temperature -/

/-- The bus when `LM75_ReadTemp` has sent the address of the sensor. -/
def addressed (b : IicBus) : List IicEvent :=
  b.trace ++ [.pend] ++ [.start] ++ [.send (lm75SlaveAddr ||| 0x01)]

theorem locks_addressed (b : IicBus) : locks (addressed b) = locks b.trace ++ [.pend] := by
  rw [addressed, locks_concat, locks_concat, locks_concat]
  simp

theorem run_pend {b : IicBus} (hfree : b.held = false) :
    osMutexPend.run b = some ((), ⟨true, b.trace ++ [.pend]⟩) := if_neg (by simp [hfree])

theorem run_waitAck (b : IicBus) : (iicWaitAck dev).run b =
    some (dev.nack b.trace, ⟨b.held, b.trace ++ [IicEvent.wait (dev.nack b.trace)] ++
      if dev.nack b.trace then [IicEvent.stop] else []⟩) := by
  have hget : (get : Iic IicBus).run b = some (b, b) := rfl
  rw [iicWaitAck, run_bind_of hget, emit, run_bind_of rfl]
  cases dev.nack b.trace with
  | true => rfl
  | false => simp

/-- `LM75_ReadTemp` after the acknowledge of its address. -/
theorem run_readTemp {b : IicBus} (hfree : b.held = false) :
    (lm75ReadTemp dev).run b =
    (if dev.nack (addressed b) = true then iicStop >>= fun _ => pure (0 : UInt16)
      else iicReadByte dev true >>= fun hi => iicReadByte dev false >>= fun lo => iicStop >>= fun _ =>
        osMutexPost >>= fun _ => pure ((hi + lm75Correction).toUInt16 <<< 8 ||| lo.toUInt16)).run
      ⟨true, addressed b ++ [IicEvent.wait (dev.nack (addressed b))] ++
        if dev.nack (addressed b) = true then [IicEvent.stop] else []⟩ := by
  unfold lm75ReadTemp
  rw [run_bind_of (run_pend hfree), iicStart, emit, run_bind_of rfl, iicSendByte, emit, run_bind_of rfl,
    run_bind_of (run_waitAck _)]
  rfl

theorem locks_waited (b : IicBus) (nack : Bool) :
    locks (addressed b ++ [IicEvent.wait nack] ++ if nack = true then [IicEvent.stop] else []) =
      locks b.trace ++ [IicEvent.pend] := by
  cases nack with
  | true => rw [if_pos rfl, locks_concat, locks_concat, locks_addressed]; simp
  | false => rw [if_neg (by decide), List.append_nil, locks_concat, locks_addressed]; simp

/-- With an acknowledge the mutex is given back. -/
theorem readTemp_acked {b : IicBus} (hb : At false l b) (hack : dev.nack (addressed b) = false) :
    ∃ temp b', (lm75ReadTemp dev).run b = some (temp, b') ∧ At false
    (l ++ [IicEvent.pend] ++ [IicEvent.post]) b' := by
  have hposts : Posts (iicReadByte dev true >>= fun hi => iicReadByte dev false >>= fun lo =>
      iicStop >>= fun _ => osMutexPost >>= fun _ =>
        pure ((hi + lm75Correction).toUInt16 <<< 8 ||| lo.toUInt16)) :=
    (quiet_readByte true).posts fun _ => (quiet_readByte false).posts fun _ => posts_stop _
  rw [run_readTemp hb.1, hack, if_neg (by decide)]
  refine hposts _ _ ⟨rfl, ?_⟩
  rw [locks_waited, hb.2]

/-- Without one the function ends with the mutex held. -/
theorem readTemp_nacked {b : IicBus} (hb : At false l b) (hnack : dev.nack (addressed b) = true) :
    ∃ b', (lm75ReadTemp dev).run b = some (0, b') ∧ At true (l ++ [.pend]) b' := by
  have hquiet : Quiet (iicStop >>= fun _ => pure (0 : UInt16)) := quiet_stop.bind fun _ => Quiet.pure 0
  rw [run_readTemp hb.1, hnack, if_pos rfl]
  refine ⟨_, rfl, rfl, ?_⟩
  rw [locks_concat, locks_waited, hb.2]
  simp

/-! ### The run -/

/-- The operations of the tasks on the bus. -/
inductive Op where
  | readOneByte (readAddr : UInt16)
  | writeOneByte (writeAddr : UInt16) (dataToWrite : UInt8)
  | read (readAddr : UInt16) (numToRead : ℕ)
  | write (writeAddr : UInt16) (pBuffer : List UInt8)
  | readLenByte (readAddr : UInt16) (len : ℕ)
  | writeLenByte (writeAddr : UInt16) (dataToWrite : UInt32) (len : ℕ)
  | iicRead (slaveAddr readAddr : UInt8) (rBufSize : UInt16)
  | iicWrite (slaveAddr writeAddr : UInt8) (wBuf : List UInt8)
  | setPointer (pointer : UInt8)
  | readTemp
  | readTempStr

variable (dev) in
/-- An operation with its result left out. -/
def Op.exec : Op → Iic Unit
  | .readOneByte readAddr => do let _ ← at24cxxReadOneByte dev readAddr
  | .writeOneByte writeAddr dataToWrite => at24cxxWriteOneByte dev writeAddr dataToWrite
  | .read readAddr numToRead => do let _ ← at24cxxRead dev readAddr numToRead
  | .write writeAddr pBuffer => at24cxxWrite dev writeAddr pBuffer
  | .readLenByte readAddr len => do let _ ← at24cxxReadLenByte dev readAddr 0 len
  | .writeLenByte writeAddr dataToWrite len => at24cxxWriteLenByte dev writeAddr dataToWrite len
  | .iicRead slaveAddr readAddr rBufSize => do let _ ← Iic.iicRead dev slaveAddr readAddr rBufSize
  | .iicWrite slaveAddr writeAddr wBuf => do let _ ← Iic.iicWrite dev slaveAddr writeAddr wBuf
  | .setPointer pointer => do let _ ← lm75SetPointer dev pointer
  | .readTemp => do let _ ← lm75ReadTemp dev
  | .readTempStr => do let _ ← lm75ReadTempStr dev

/-- How often an operation has to take the mutex. -/
def Op.count : Op → ℕ
  | .read _ n | .readLenByte _ n | .writeLenByte _ _ n => n
  | .write _ pBuffer => pBuffer.length
  | _ => 1

/-- The operation reads the temperature. -/
def Op.IsReadTemp : Op → Prop
  | .readTemp | .readTempStr => True
  | _ => False

/-- An operation that does not read the temperature takes the mutex and gives it back. -/
theorem exec_brackets {op : Op} (h : ¬op.IsReadTemp) : Brackets op.count (op.exec dev) := by
  have hdrop {n : ℕ} {α : Type} {m : Iic α} (hm : Brackets n m) :
      Brackets n (m >>= fun _ => pure ()) := hm.bind fun _ => Brackets.pure ()
  cases op with
  | readOneByte readAddr => exact hdrop (readOneByte_brackets readAddr)
  | writeOneByte writeAddr dataToWrite => exact writeOneByte_brackets writeAddr dataToWrite
  | read readAddr numToRead => exact hdrop (read_brackets readAddr numToRead)
  | write writeAddr pBuffer => exact write_brackets writeAddr pBuffer
  | readLenByte readAddr len => exact hdrop (readLenByte_brackets readAddr 0 len)
  | writeLenByte writeAddr dataToWrite len => exact writeLenByte_brackets writeAddr dataToWrite len
  | iicRead slaveAddr readAddr rBufSize => exact hdrop (iicRead_brackets slaveAddr readAddr rBufSize)
  | iicWrite slaveAddr writeAddr wBuf => exact hdrop (iicWrite_brackets slaveAddr writeAddr wBuf)
  | setPointer pointer => exact hdrop (setPointer_brackets pointer)
  | readTemp => exact absurd trivial h
  | readTempStr => exact absurd trivial h

variable (dev) in
/-- One operation after another; `none` is an operation that waits for ever. -/
def step (s : Option IicBus) (op : Op) : Option IicBus :=
  s.bind fun b => ((op.exec dev).run b).map Prod.snd

/-- Every operation has come back, and has given the mutex back as often as it took it, each time
    before it took it again. -/
def Free (s : Option IicBus) : Prop :=
  ∃ b n, s = some b ∧ At false (List.replicate n [IicEvent.pend, .post]).flatten b

variable (dev) in
/-- The sensor acknowledges the address that a reading of the temperature begins with. -/
def OpOk (s : Option IicBus) (op : Op) : Prop :=
  op.IsReadTemp → ∀ b ∈ s, dev.nack (addressed b) = false

/-- A reading of the temperature gives the mutex back exactly when it is acknowledged. -/
theorem step_readTemp_free_iff {b : IicBus} {n : ℕ} {op : Op} (hop : op.IsReadTemp)
    (hb : At false (List.replicate n [IicEvent.pend, .post]).flatten b) :
    Free (step dev (some b) op) ↔ dev.nack (addressed b) = false := by
  have hsnd : step dev (some b) op = ((lm75ReadTemp dev).run b).map Prod.snd := by
    cases op with
    | readTemp | readTempStr =>
      simp only [step, Op.exec, lm75ReadTempStr, Option.bind_some]
      cases hrun : (lm75ReadTemp dev).run b with
      | none => simp [hrun]
      | some r => simp [hrun]
    | _ => exact hop.elim
  rw [hsnd]
  cases hnack : dev.nack (addressed b) with
  | false =>
    obtain ⟨temp, b', hrun, hb'⟩ := readTemp_acked hb hnack
    refine iff_of_true ⟨b', n + 1, by rw [hrun]; rfl, ?_⟩ rfl
    rw [List.replicate_succ', List.flatten_append]
    simpa using hb'
  | true =>
    obtain ⟨b', hrun, hb'⟩ := readTemp_nacked hb hnack
    refine iff_of_false ?_ (by decide)
    rintro ⟨b'', k, hb'', hfree⟩
    rw [hrun, Option.map_some, Option.some_inj] at hb''
    rw [← hb''] at hfree
    exact Bool.false_ne_true (hfree.1.symm.trans hb'.1)

/-- An operation leaves the mutex free exactly under its condition. -/
theorem step_free_iff {s : Option IicBus} (h : Free s) (op : Op) :
    Free (step dev s op) ↔ OpOk dev s op := by
  obtain ⟨b, n, rfl, hb⟩ := h
  by_cases hop : op.IsReadTemp
  · rw [step_readTemp_free_iff hop hb]
    simp only [OpOk, hop, true_implies, Option.mem_some_iff, forall_eq']
  · refine iff_of_true ?_ fun hread => absurd hread hop
    obtain ⟨_, b', hrun, hb'⟩ := exec_brackets hop _ b hb
    refine ⟨b', n + op.count, by rw [step, Option.bind_some, hrun]; rfl, ?_⟩
    rwa [← List.flatten_append, List.replicate_append_replicate] at hb'

/-- The bus before the first operation. -/
def idle : IicBus := ⟨false, []⟩

theorem free_idle : Free (some idle) := ⟨idle, 0, rfl, rfl, rfl⟩

variable (dev) in
/-- Over a run every operation takes the mutex and gives it back, and leaves it free, exactly when the
    sensor acknowledges its address in every reading of the temperature. -/
theorem mutex_free_iff (ops : List Op) :
    (∀ p ∈ Run.steps (step dev) (some idle) ops, Free (step dev p.1 p.2)) ↔
      ∀ p ∈ Run.steps (step dev) (some idle) ops, OpOk dev p.1 p.2 :=
  Run.steps_iff Free (OpOk dev) (fun _ op h => step_free_iff h op) ops _ free_idle

/-- Devices that acknowledge nothing. -/
def absent : IicSlaves := ⟨fun _ => true, fun _ => 0xFF⟩

/-- The temperature is read without a sensor: the mutex stays held, and the next read waits for ever. -/
theorem not_mutex_free : ¬Free (step absent (some idle) .readTemp) ∧
    step absent (step absent (some idle) .readTemp) (.readOneByte 0) = none := by
  constructor
  · have hread : Op.IsReadTemp .readTemp := trivial
    have hidle : At false (List.replicate 0 [IicEvent.pend, .post]).flatten idle := ⟨rfl, rfl⟩
    rw [step_readTemp_free_iff hread hidle]
    decide
  · rfl

end Iic

end VectorFence
