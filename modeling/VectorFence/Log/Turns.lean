import VectorFence.Log.Race

/-! The turns of `FastClearLog` and of `WriteLog`, whatever the other call does between them: which
    cells they come to, in which order, and what they leave there. -/

namespace VectorFence

namespace Log

open Eeprom Interleave

/-- The bytes of the stored pointer and the first byte of a slot. -/
abbrev lowCell (t : LogType) : Cell := .byte (logNextWAddr t)
abbrev highCell (t : LogType) : Cell := .byte (logNextWAddr t + 1)
abbrev headCell (t : LogType) (k : ℕ) : Cell := .byte (slotAddr t k)

/-! ### The turns of the two calls -/

/-- What the turns of `WriteLog` find: the slot, the bytes there, `nextWriteAddrVal` when it is moved
    on, the bytes of the pointer. -/
structure WriteTurns where
  slot : ℕ
  bytes : ℕ → UInt8
  next : ℕ
  low : UInt8
  high : UInt8

/-- The turns of `WriteLog` with the entry `e`. -/
def WriteTurns.turns (t : LogType) (e : List UInt8) (r : WriteTurns) : List (Turn Cell.Val) :=
  ⟨.next t, r.slot, r.slot⟩ ::
    ((List.range e.length).map (fun k => ⟨.byte ((r.slot + k) % 0x10000), r.bytes k, e.getD k 0⟩) ++
      [⟨.next t, r.next, advance t r.next⟩,
        ⟨lowCell t, r.low, UInt8.ofNat (advance t r.next)⟩,
        ⟨highCell t, r.high, UInt8.ofNat (advance t r.next / 256)⟩])

/-- What the turns of `FastClearLog` find: `nextWriteAddrVal` and the byte there, with an erased byte
    `nextWriteAddrVal` again, and the stored pointer. `slots` is how many slots are erased; the rest is
    what is overwritten, and the turns at the other logs. -/
structure ClearTurns where
  next : ℕ
  probe : UInt8
  last : ℕ
  slots : ℕ
  high : UInt8
  low : UInt8
  wasLow : UInt8
  wasHigh : UInt8
  wasLow' : UInt8
  wasHigh' : UInt8
  was : ℕ → UInt8
  wasNext : ℕ
  others : List (Turn Cell.Val)
  others' : List (Turn Cell.Val)

namespace ClearTurns

/-- The stored pointer that `Log_Init` reads. -/
def stored (r : ClearTurns) : ℕ := r.high.toNat * 256 + r.low.toNat

/-- Where `Log_Init` sets `nextWriteAddrVal`. -/
def set (t : LogType) (r : ClearTurns) : ℕ :=
  if r.stored = 0xffff then eachTypeLogBasedAddr t else r.stored

/-- The turns up to where `nextWriteAddrVal` is read again. -/
def front (t : LogType) (r : ClearTurns) : List (Turn Cell.Val) :=
  [⟨lowCell t, r.wasLow, 0xFF⟩, ⟨highCell t, r.wasHigh, 0xFF⟩, ⟨.next t, r.next, r.next⟩,
    ⟨.byte (r.next % 0x10000), r.probe, r.probe⟩]

/-- The turns from the first erased slot until the pointer is read. -/
def middle (t : LogType) (r : ClearTurns) : List (Turn Cell.Val) :=
  (List.range r.slots).map (fun k => ⟨.byte (slotAddr t k % 0x10000), r.was k, 0xFF⟩) ++
    r.others ++ [⟨highCell t, r.high, r.high⟩, ⟨lowCell t, r.low, r.low⟩]

/-- The turns once `nextWriteAddrVal` is set. -/
def back (t : LogType) (r : ClearTurns) : List (Turn Cell.Val) :=
  (if r.stored = 0xffff then
    [⟨lowCell t, r.wasLow', UInt8.ofNat (eachTypeLogBasedAddr t)⟩,
      ⟨highCell t, r.wasHigh', UInt8.ofNat (eachTypeLogBasedAddr t / 256)⟩]
  else []) ++ r.others'

/-- `nextWriteAddrVal` read again. -/
def again (t : LogType) (r : ClearTurns) : List (Turn Cell.Val) :=
  if r.probe ≠ 0xFF then [] else [⟨.next t, r.last, r.last⟩]

/-- The turns before `nextWriteAddrVal` is set. -/
def early (t : LogType) (r : ClearTurns) : List (Turn Cell.Val) :=
  r.front t ++ r.again t ++ r.middle t

/-- The turns of `FastClearLog`. -/
def turns (t : LogType) (r : ClearTurns) : List (Turn Cell.Val) :=
  r.early t ++ ⟨.next t, r.wasNext, r.set t⟩ :: r.back t

end ClearTurns

/-- The cell belongs to another log than `t`. -/
def Elsewhere (t : LogType) (l : Cell) : Prop :=
  ∃ u ≠ t, l = .next u ∨ l = lowCell u ∨ l = highCell u

/-- What the turns find hangs together: the byte at `nextWriteAddrVal` and `nextWriteAddrVal` say how
    many slots are erased. -/
structure ClearTurns.Ok (t : LogType) (r : ClearTurns) : Prop where
  full : r.probe ≠ 0xFF → r.slots = 300
  used : r.probe = 0xFF → ∀ j ≤ 300, r.last = slotAddr t j → r.slots = j
  others : ∀ e ∈ r.others, Elsewhere t e.loc
  others' : ∀ e ∈ r.others', Elsewhere t e.loc

/-- The probe is a slot, and no more slots are erased than there are. -/
structure ClearTurns.InRing (t : LogType) (r : ClearTurns) : Prop where
  probe : ∃ k < 300, r.next = slotAddr t k
  slots : r.slots ≤ 300

namespace Steps

variable {t : LogType} {p : Steps} {es : List (Turn Cell.Val)}

theorem path_readOneByte {a : ℕ} {k : UInt8 → Steps} :
    Prog.Path (at24cxxReadOneByte a k) es ↔
      ∃ v es', es = ⟨.byte (a % 0x10000), v, v⟩ :: es' ∧ Prog.Path (k v) es' :=
  Prog.path_read

theorem path_writeOneByte {a : ℕ} {v : UInt8} :
    Prog.Path (at24cxxWriteOneByte a v p) es ↔
      ∃ u es', es = ⟨.byte (a % 0x10000), u, v⟩ :: es' ∧ Prog.Path p es' :=
  Prog.path_write

theorem path_readLenByte {a : ℕ} {k : ℕ → Steps} (h : Prog.Path (at24cxxReadLenByte a 2 k) es) :
    ∃ (high low : UInt8) (es' : List (Turn Cell.Val)),
      es = ⟨.byte ((a + 1) % 0x10000), high, high⟩ :: ⟨.byte (a % 0x10000), low, low⟩ :: es' ∧
        Prog.Path (k (high.toNat * 256 + low.toNat)) es' := by
  rw [at24cxxReadLenByte] at h
  simp only [List.range_succ, List.range_zero, List.nil_append, List.singleton_append, List.foldr_cons,
    List.foldr_nil, path_readOneByte, Nat.shiftLeft_eq] at h
  obtain ⟨high, _, rfl, low, es', rfl, h⟩ := h
  have hhigh := UInt8.toNat_lt high
  have hlow := UInt8.toNat_lt low
  have hvalue : ((0 * 2 ^ 8 + UInt8.toNat high) % 0x100000000 * 2 ^ 8 + UInt8.toNat low) % 0x100000000 =
      UInt8.toNat high * 256 + UInt8.toNat low := by
    omega
  rw [hvalue] at h
  refine ⟨high, low, es', ?_, h⟩
  rw [show a + 2 - 0 - 1 = a + 1 by omega, show a + 2 - 1 - 1 = a by omega]

theorem path_writeLenByte {a v : ℕ} (h : Prog.Path (at24cxxWriteLenByte a v 2 p) es) :
    ∃ (low high : UInt8) (es' : List (Turn Cell.Val)),
      es = ⟨.byte (a % 0x10000), low, UInt8.ofNat v⟩ ::
          ⟨.byte ((a + 1) % 0x10000), high, UInt8.ofNat (v / 256)⟩ :: es' ∧ Prog.Path p es' := by
  rw [at24cxxWriteLenByte] at h
  simp only [List.range_succ, List.range_zero, List.nil_append, List.singleton_append, List.foldr_cons,
    List.foldr_nil, path_writeOneByte, ofNat_byte, pow_zero, pow_one, Nat.div_one, Nat.add_zero] at h
  obtain ⟨low, _, rfl, high, es', rfl, h⟩ := h
  exact ⟨low, high, es', rfl, h⟩

theorem path_write : ∀ {buf : List UInt8} {a : ℕ} {es : List (Turn Cell.Val)},
    Prog.Path (at24cxxWrite a buf p) es → ∃ (u : ℕ → UInt8) (es' : List (Turn Cell.Val)),
      es = (List.range buf.length).map
          (fun k => ⟨.byte ((a + k) % 0x10000), u k, buf.getD k 0⟩) ++ es' ∧ Prog.Path p es'
  | [], _, es, h => ⟨fun _ => 0, es, rfl, h⟩
  | b :: buf, a, es, h => by
      rw [at24cxxWrite, path_writeOneByte] at h
      obtain ⟨v, rest, rfl, h⟩ := h
      obtain ⟨u, es', rfl, hrest⟩ := path_write h
      refine ⟨fun k => Nat.casesOn k v u, es', ?_, hrest⟩
      rw [List.length_cons, List.range_succ_eq_map, List.map_cons, List.map_map, List.cons_append]
      refine congrArg₂ _ rfl (congrArg (· ++ es') (List.map_congr_left fun k _ => ?_))
      rw [Function.comp_apply, List.getD_cons_succ, Nat.succ_eq_add_one, Nat.add_right_comm,
        Nat.add_assoc a]

theorem path_fastErase : ∀ (fuel a len : ℕ) (es : List (Turn Cell.Val)),
    Prog.Path (fastEraseLogEEProm fuel a len p) es →
      ∃ (n : ℕ) (u : ℕ → UInt8) (es' : List (Turn Cell.Val)),
        es = (List.range n).map (fun k => ⟨.byte ((a + eachLogSize * k) % 0x10000), u k, 0xFF⟩) ++ es' ∧
          Prog.Path p es' ∧
            ∀ j ≤ fuel, len = eachLogSize * j → len < 0x10000 → n = j
  | 0, _, _, es, h => ⟨0, fun _ => 0, es, rfl, h, fun j hj _ _ => by omega⟩
  | fuel + 1, a, len, es, h => by
      rw [fastEraseLogEEProm] at h
      split_ifs at h with hlen
      · refine ⟨0, fun _ => 0, es, rfl, h, fun j _ hj _ => ?_⟩
        rw [hlen, eachLogSize] at hj
        omega
      · rw [path_writeOneByte] at h
        obtain ⟨v, rest, rfl, h⟩ := h
        obtain ⟨n, u, es', rfl, hrest, hn⟩ := path_fastErase fuel _ _ _ h
        refine ⟨n + 1, fun k => Nat.casesOn k v u, es', ?_, hrest, fun j hj hjlen hlt => ?_⟩
        · rw [List.range_succ_eq_map, List.map_cons, List.map_map, List.cons_append]
          refine congrArg₂ _ rfl (congrArg (· ++ es') (List.map_congr_left fun k _ => ?_))
          have haddr : ((a + eachLogSize) % 0x10000 + eachLogSize * k) % 0x10000 =
              (a + eachLogSize * k.succ) % 0x10000 := by
            rw [Nat.mod_add_mod, Nat.mul_succ, Nat.add_assoc, Nat.add_comm eachLogSize]
          rw [haddr]
          rfl
        · rw [eachLogSize] at hjlen
          have hrec := hn (j - 1) (by omega) (by rw [eachLogSize]; omega) (by rw [eachLogSize]; omega)
          omega

theorem logNextWAddr_mod (t : LogType) :
    logNextWAddr t % 0x10000 = logNextWAddr t ∧
      (logNextWAddr t + 1) % 0x10000 = logNextWAddr t + 1 := by
  have := logNextWAddr_eq t
  omega

theorem path_logInit {us : List LogType} (h : Prog.Path (logInit (t :: us)) es) :
    ∃ (high low low' high' : UInt8) (next : ℕ) (es' : List (Turn Cell.Val)),
      es = ⟨highCell t, high, high⟩ :: ⟨lowCell t, low, low⟩ ::
          ⟨.next t, next, if high.toNat * 256 + low.toNat = 0xffff then eachTypeLogBasedAddr t
            else high.toNat * 256 + low.toNat⟩ ::
          ((if high.toNat * 256 + low.toNat = 0xffff then
            [⟨lowCell t, low', UInt8.ofNat (eachTypeLogBasedAddr t)⟩,
              ⟨highCell t, high', UInt8.ofNat (eachTypeLogBasedAddr t / 256)⟩]
          else []) ++ es') ∧ Prog.Path (logInit us) es' := by
  obtain ⟨hlow, hhigh⟩ := logNextWAddr_mod t
  obtain ⟨high, low, rest, rfl, hset⟩ := path_readLenByte h
  rw [Prog.path_write] at hset
  obtain ⟨next, rest, rfl, hstore⟩ := hset
  rw [hlow, hhigh]
  split_ifs at hstore with hstored
  · obtain ⟨low', high', es', rfl, hrest⟩ := path_writeLenByte hstore
    rw [hlow, hhigh]
    exact ⟨high, low, low', high', next, es', by simp only [if_pos hstored]; rfl, hrest⟩
  · exact ⟨high, low, 0, 0, next, rest, by simp only [if_neg hstored]; rfl, hstore⟩

/-- The turns of `Log_Init` at the logs `us`. -/
theorem path_logInit_append {vs : List LogType} : ∀ (us : List LogType) (es : List (Turn Cell.Val)),
    Prog.Path (logInit (us ++ vs)) es → ∃ o es' : List (Turn Cell.Val), es = o ++ es' ∧
      (∀ e ∈ o, ∃ u ∈ us, e.loc = .next u ∨ e.loc = lowCell u ∨ e.loc = highCell u) ∧
        Prog.Path (logInit vs) es'
  | [], es, h => ⟨[], es, rfl, by simp, h⟩
  | u :: us, es, h => by
      obtain ⟨high, low, low', high', next, rest, rfl, hus⟩ := path_logInit h
      obtain ⟨o, es', rfl, ho, hrest⟩ := path_logInit_append us rest hus
      rw [← List.append_assoc, ← List.cons_append, ← List.cons_append, ← List.cons_append]
      refine ⟨_, es', rfl, fun e he => ?_, hrest⟩
      simp only [List.mem_cons, List.mem_append] at he
      rcases he with rfl | rfl | rfl | he | he
      · exact ⟨u, List.mem_cons_self .., .inr (.inr rfl)⟩
      · exact ⟨u, List.mem_cons_self .., .inr (.inl rfl)⟩
      · exact ⟨u, List.mem_cons_self .., .inl rfl⟩
      · refine ⟨u, List.mem_cons_self .., ?_⟩
        split_ifs at he with hstored
        · simp only [List.mem_cons, List.not_mem_nil, or_false] at he
          rcases he with rfl | rfl
          · exact .inr (.inl rfl)
          · exact .inr (.inr rfl)
        · cases he
      · obtain ⟨v, hv, hloc⟩ := ho e he
        exact ⟨v, List.mem_cons_of_mem _ hv, hloc⟩

theorem path_writeLog {time : List UInt8} {flag : UInt8} (h : Prog.Path (writeLog t time flag) es) :
    ∃ r : WriteTurns, es = r.turns t (time ++ [flag]) := by
  obtain ⟨hlow, hhigh⟩ := logNextWAddr_mod t
  rw [writeLog, Prog.path_read] at h
  obtain ⟨slot, _, rfl, hentry⟩ := h
  obtain ⟨bytes, _, rfl, hnext⟩ := path_write hentry
  rw [Prog.path_turn] at hnext
  obtain ⟨next, _, rfl, hstore⟩ := hnext
  obtain ⟨low, high, _, rfl, hend⟩ := path_writeLenByte hstore
  rw [Prog.path_done] at hend
  rw [hlow, hhigh, hend]
  exact ⟨⟨slot, bytes, next, low, high⟩, rfl⟩

theorem finRange_split (t : LogType) : ∃ us vs : List LogType,
    List.finRange 5 = us ++ t :: vs ∧ t ∉ us ∧ t ∉ vs := by
  obtain ⟨us, vs, h⟩ := List.append_of_mem (List.mem_finRange t)
  have hnodup := List.nodup_finRange 5
  rw [h, List.nodup_middle, List.nodup_cons, List.mem_append, not_or] at hnodup
  exact ⟨us, vs, h, hnodup.1⟩

/-- What the clear finds, `probe` and `next` being known. -/
theorem path_cleared {len : ℕ} (next last : ℕ) (probe wasLow wasHigh : UInt8) (h : Prog.Path
    (fastEraseLogEEProm 0x10000 (eachTypeLogBasedAddr t) len (logInit (List.finRange 5))) es) :
    ∃ r : ClearTurns, (r.next = next ∧ r.last = last ∧ r.probe = probe ∧ r.wasLow = wasLow ∧
      r.wasHigh = wasHigh) ∧ es = r.middle t ++ ⟨.next t, r.wasNext, r.set t⟩ :: r.back t ∧
        (∀ j ≤ 300, len = eachLogSize * j → r.slots = j) ∧
          (∀ e ∈ r.others, Elsewhere t e.loc) ∧ ∀ e ∈ r.others', Elsewhere t e.loc := by
  obtain ⟨us, vs, hsplit, hus, hvs⟩ := finRange_split t
  rw [hsplit] at h
  obtain ⟨slots, was, _, rfl, hinit, hslots⟩ := path_fastErase _ _ _ _ h
  obtain ⟨others, _, rfl, hothers, hthis⟩ := path_logInit_append us _ hinit
  obtain ⟨high, low, low', high', wasNext, rest, rfl, hrest⟩ := path_logInit hthis
  obtain ⟨others', end', rfl, hothers', hend⟩ :=
    path_logInit_append vs rest (by rwa [List.append_nil vs])
  rw [logInit, Prog.path_done] at hend
  subst hend
  have helse {ws : List LogType} (hws : t ∉ ws) {l : Cell}
      (h : ∃ u ∈ ws, l = .next u ∨ l = lowCell u ∨ l = highCell u) : Elsewhere t l := by
    obtain ⟨u, hu, hl⟩ := h
    exact ⟨u, fun hut => hws (hut ▸ hu), hl⟩
  refine ⟨⟨next, probe, last, slots, high, low, wasLow, wasHigh, low', high', was, wasNext, others,
    others'⟩, ⟨rfl, rfl, rfl, rfl, rfl⟩, ?_, ?_, fun e he => helse hus (hothers e he),
    fun e he => helse hvs (hothers' e he)⟩
  · simp only [ClearTurns.middle, ClearTurns.back, ClearTurns.set, ClearTurns.stored, slotAddr,
      List.append_assoc, List.append_nil, List.cons_append, List.nil_append]
    rfl
  · intro j hj hlen
    exact hslots j (by omega) hlen (by rw [hlen, eachLogSize]; omega)

theorem path_fastClearLog (h : Prog.Path (fastClearLog t) es) :
    ∃ r : ClearTurns, es = r.turns t ∧ r.Ok t := by
  obtain ⟨hlow, hhigh⟩ := logNextWAddr_mod t
  rw [fastClearLog, eraseEEProm, path_writeOneByte] at h
  obtain ⟨wasLow, _, rfl, hhighErased⟩ := h
  rw [eraseEEProm, path_writeOneByte] at hhighErased
  obtain ⟨wasHigh, _, rfl, hnext⟩ := hhighErased
  rw [eraseEEProm, Prog.path_read] at hnext
  obtain ⟨next, _, rfl, hprobe⟩ := hnext
  rw [path_readOneByte] at hprobe
  obtain ⟨probe, _, rfl, herase⟩ := hprobe
  rw [hlow, hhigh]
  split_ifs at herase with hwritten
  · obtain ⟨r, ⟨rfl, hlast, rfl, rfl, rfl⟩, rfl, hslots, hothers⟩ :=
      path_cleared next 0 probe wasLow wasHigh herase
    refine ⟨r, ?_, ⟨fun _ => hslots 300 le_rfl rfl, fun hprobe => absurd hprobe hwritten, hothers.1,
      hothers.2⟩⟩
    simp [ClearTurns.turns, ClearTurns.early, ClearTurns.front, ClearTurns.again, hwritten]
  · rw [Prog.path_read] at herase
    obtain ⟨last, _, rfl, herase⟩ := herase
    obtain ⟨r, ⟨rfl, rfl, rfl, rfl, rfl⟩, rfl, hslots, hothers⟩ :=
      path_cleared next last probe wasLow wasHigh herase
    refine ⟨r, ?_, ⟨fun hprobe => absurd hprobe hwritten, fun _ j hj hlast => hslots j hj ?_, hothers.1,
      hothers.2⟩⟩
    · simp [ClearTurns.turns, ClearTurns.early, ClearTurns.front, ClearTurns.again, hwritten]
    · have hlen : u32 ((slotAddr t j : ℤ) - eachTypeLogBasedAddr t) = eachLogSize * j :=
        u32_eq (by rw [slotAddr]; push_cast; ring) (by rw [eachLogSize]; omega)
      rw [hlast, hlen, eachLogSize]
      omega

end Steps

/-! ### The turns at one cell -/

section Changes

variable {t : LogType} {a : ℕ} {es : List (Turn Cell.Val)} {C : ClearTurns} {W : WriteTurns}
  {e : List UInt8} {place : ℕ → ℕ}

theorem changes_others {x : Cell} (h : ∀ e ∈ es, Elsewhere t e.loc)
    (hx : x = .next t ∨ x = lowCell t ∨ x = highCell t ∨ ∃ a ≥ 256, x = .byte a) :
    changes x es = [] := by
  refine changes_eq_nil fun e he hex => ?_
  obtain ⟨u, hut, hu⟩ := h e he
  rw [hex] at hu
  have ht := logNextWAddr_eq t
  have hu' := logNextWAddr_eq u
  have hne : (u : ℕ) ≠ t := fun hv => hut (Fin.ext hv)
  have hult := u.isLt
  rcases hx with rfl | rfl | rfl | ⟨a, ha, rfl⟩
  · simp [hut.symm] at hu
  · simp at hu
    omega
  · simp at hu
    omega
  · simp at hu
    omega

theorem changes_slots_of_ne {x : Cell} {n : ℕ} (was : ℕ → UInt8)
    (hx : ∀ k < n, x ≠ .byte (slotAddr t k % 0x10000)) :
    changes x ((List.range n).map
      (fun k => (⟨.byte (slotAddr t k % 0x10000), was k, 0xFF⟩ : Turn Cell.Val))) = [] := by
  refine changes_eq_nil fun e he hex => ?_
  obtain ⟨k, hk, rfl⟩ := List.mem_map.mp he
  exact hx k (List.mem_range.mp hk) hex.symm

/-- The clear reads `nextWriteAddrVal` once or twice before it sets it. -/
theorem ClearTurns.changes_next (h : C.Ok t) :
    changes (.next t) (C.early t) =
        (C.next, C.next) :: (if C.probe ≠ 0xFF then [] else [(C.last, C.last)]) ∧
      changes (.next t) (C.back t) = [] := by
  have hslots := changes_slots_of_ne (t := t) (x := .next t) (n := C.slots) C.was (by simp)
  have hothers := changes_others h.others (.inl rfl)
  have hothers' := changes_others h.others' (.inl rfl)
  simp only [early, front, again, middle, back, changes_append, hslots, hothers, changes_cons, hothers']
  constructor <;> split_ifs <;> simp [changes_cons, Turn.change]

theorem slotAddr_wrap {k : ℕ} (hk : k ≤ 300) : slotAddr t k % 0x10000 = slotAddr t k := by
  have := slotAddr_lt t hk
  omega

theorem pointer_ne_slotAddr (k : ℕ) :
    logNextWAddr t ≠ slotAddr t k ∧ logNextWAddr t + 1 ≠ slotAddr t k := by
  have := logNextWAddr_eq t
  rw [slotAddr_eq]
  omega

/-- A byte of the stored pointer is erased and read, and stored again where both bytes are found
    erased. -/
theorem ClearTurns.changes_pointer (h : C.Ok t) (hin : C.InRing t) :
    (changes (lowCell t) (C.early t) = [(C.wasLow, 0xFF), (C.low, C.low)] ∧
      changes (lowCell t) (C.turns t) = [(C.wasLow, 0xFF), (C.low, C.low)] ++
        if C.stored = 0xffff then [(C.wasLow', UInt8.ofNat (eachTypeLogBasedAddr t))] else []) ∧
      changes (highCell t) (C.early t) = [(C.wasHigh, 0xFF), (C.high, C.high)] ∧
      changes (highCell t) (C.turns t) = [(C.wasHigh, 0xFF), (C.high, C.high)] ++
        if C.stored = 0xffff then [(C.wasHigh', UInt8.ofNat (eachTypeLogBasedAddr t / 256))] else [] := by
  obtain ⟨⟨k, hk, hnext⟩, hslots⟩ := hin
  have hprobe : ¬C.next % 0x10000 = logNextWAddr t ∧ ¬C.next % 0x10000 = logNextWAddr t + 1 := by
    rw [hnext, slotAddr_wrap hk.le]
    exact ⟨(pointer_ne_slotAddr k).1.symm, (pointer_ne_slotAddr k).2.symm⟩
  have hlow := changes_slots_of_ne (t := t) (x := lowCell t) (n := C.slots) C.was
    fun j hj => by
      rw [slotAddr_wrap (by omega)]
      simp [(pointer_ne_slotAddr (t := t) j).1]
  have hhigh := changes_slots_of_ne (t := t) (x := highCell t) (n := C.slots) C.was
    fun j hj => by
      rw [slotAddr_wrap (by omega)]
      simp [(pointer_ne_slotAddr (t := t) j).2]
  have hothers := changes_others h.others (.inr (.inl rfl))
  have hothers' := changes_others h.others' (.inr (.inl rfl))
  have hohigh := changes_others h.others (.inr (.inr (.inl rfl)))
  have hohigh' := changes_others h.others' (.inr (.inr (.inl rfl)))
  simp only [turns, early, front, again, middle, back, changes_append, hlow, hhigh, hothers, hohigh,
    changes_cons, hothers', hohigh']
  refine ⟨⟨?_, ?_⟩, ?_, ?_⟩ <;> split_ifs <;> simp [changes_cons, Turn.change, hprobe]

/-- At the first byte of a slot: the probe, and the erasing. -/
theorem ClearTurns.changes_head (h : C.Ok t) (hin : C.InRing t) {j : ℕ} (hj : j < 300) :
    changes (headCell t j) (C.front t) = (if C.next = slotAddr t j then [(C.probe, C.probe)] else []) ∧
      changes (headCell t j) (C.early t) =
        (if C.next = slotAddr t j then [(C.probe, C.probe)] else []) ++
        (if j < C.slots then [(C.was j, 0xFF)] else []) ∧
      changes (headCell t j) (C.turns t) =
        (if C.next = slotAddr t j then [(C.probe, C.probe)] else []) ++
        if j < C.slots then [(C.was j, 0xFF)] else [] := by
  obtain ⟨⟨k, hk, hnext⟩, hslots⟩ := hin
  have hbyte : ∃ a ≥ 256, headCell t j = .byte a := ⟨_, by rw [slotAddr_eq]; omega, rfl⟩
  have hothers := changes_others h.others (.inr (.inr (.inr hbyte)))
  have hothers' := changes_others h.others' (.inr (.inr (.inr hbyte)))
  have herased : changes (headCell t j) ((List.range C.slots).map
      (fun k => (⟨.byte (slotAddr t k % 0x10000), C.was k, 0xFF⟩ : Turn Cell.Val))) =
        if j < C.slots then [(C.was j, 0xFF)] else [] := by
    refine changes_range C.slots fun i hi => ?_
    rw [slotAddr_wrap (hi.le.trans hslots)]
    split_ifs with hij
    · rw [hij, change_self]
    · exact change_of_ne (by simpa [slotAddr_inj] using hij)
  obtain ⟨hlow, hhigh⟩ := pointer_ne_slotAddr (t := t) j
  have hprobe : (⟨.byte (C.next % 0x10000), C.probe, C.probe⟩ : Turn Cell.Val).change (headCell t j) =
      if C.next = slotAddr t j then some (C.probe, C.probe) else none := by
    rw [show C.next % 0x10000 = C.next by rw [hnext, slotAddr_wrap hk.le]]
    split_ifs with hat
    · rw [hat, change_self]
    · exact change_of_ne (by simpa using hat)
  simp only [turns, early, front, again, middle, back, changes_append, herased, hothers,
    changes_cons, hothers', hprobe]
  refine ⟨?_, ?_, ?_⟩ <;> split_ifs <;> simp [changes_cons, Turn.change, hlow, hhigh]

/-- The clear does not come to the other bytes of the ring. -/
theorem ClearTurns.changes_byte (h : C.Ok t) (hin : C.InRing t) (ha : 256 ≤ a)
    (hhead : ∀ j < 300, a ≠ slotAddr t j) : changes (.byte a) (C.turns t) = [] := by
  obtain ⟨⟨k, hk, hnext⟩, hslots⟩ := hin
  have hbyte : ∃ b ≥ 256, Cell.byte a = .byte b := ⟨a, ha, rfl⟩
  have hothers := changes_others h.others (.inr (.inr (.inr hbyte)))
  have hothers' := changes_others h.others' (.inr (.inr (.inr hbyte)))
  have herased := changes_slots_of_ne (t := t) (x := .byte a) (n := C.slots) C.was
    fun j hj => by
      rw [slotAddr_wrap (by omega)]
      simpa using hhead j (by omega)
  have hlow : logNextWAddr t ≠ a ∧ logNextWAddr t + 1 ≠ a := by
    have := logNextWAddr_eq t
    omega
  have hprobe : ¬C.next % 0x10000 = a := by
    rw [hnext, slotAddr_wrap hk.le]
    exact (hhead k hk).symm
  simp only [turns, early, front, again, middle, back, changes_append, herased, hothers, changes_cons,
    hothers']
  split_ifs <;> simp [changes_cons, Turn.change, hlow, hprobe]

/-- `WriteLog` comes to `nextWriteAddrVal` in its turns 0 and 21. -/
theorem WriteTurns.placed_next (he : e.length = 20) :
    placed (.next t) place 0 (W.turns t e) =
      [(place 0, (W.slot, W.slot)), (place 21, (W.next, advance t W.next))] := by
  have hentry : changes (Cell.next t) ((List.range e.length).map fun k =>
      (⟨.byte ((W.slot + k) % 0x10000), W.bytes k, e.getD k 0⟩ : Turn Cell.Val)) = [] := by
    refine changes_eq_nil fun e' he' => ?_
    obtain ⟨k, -, rfl⟩ := List.mem_map.mp he'
    simp
  rw [turns, placed, placed_append, placed_eq_nil hentry, List.length_map, List.length_range, he]
  simp [placed, Turn.change]

/-- The bytes of an entry, in the slot the write has read. -/
theorem WriteTurns.change_entry {k : ℕ} (hk : k < 300) (hslot : W.slot = slotAddr t k) {i : ℕ}
    (hi : i < 20) : (⟨.byte ((W.slot + i) % 0x10000), W.bytes i, e.getD i 0⟩ : Turn Cell.Val).change
      (.byte a) = if i = a - slotAddr t k ∧ slotAddr t k ≤ a then
        some (W.bytes (a - slotAddr t k), e.getD (a - slotAddr t k) 0) else none := by
  have hmod : (W.slot + i) % 0x10000 = slotAddr t k + i := by
    have := slotAddr_lt t hk.le
    rw [hslot]
    omega
  rw [hmod]
  split_ifs with hia
  · obtain ⟨rfl, hle⟩ := hia
    rw [Nat.add_sub_cancel' hle, change_self]
  · refine change_of_ne fun hbyte => hia ?_
    have := Cell.byte.inj hbyte
    omega

/-- It stores the pointer in its turns 22 and 23. -/
theorem WriteTurns.placed_pointer (place : ℕ → ℕ) (he : e.length = 20) {k : ℕ} (hk : k < 300)
    (hslot : W.slot = slotAddr t k) :
    placed (lowCell t) place 0 (W.turns t e) =
        [(place 22, (W.low, UInt8.ofNat (advance t W.next)))] ∧
      placed (highCell t) place 0 (W.turns t e) =
        [(place 23, (W.high, UInt8.ofNat (advance t W.next / 256)))] := by
  have hentry (a : ℕ) (ha : a < 256) : changes (Cell.byte a) ((List.range e.length).map fun k =>
      (⟨.byte ((W.slot + k) % 0x10000), W.bytes k, e.getD k 0⟩ : Turn Cell.Val)) = [] := by
    rw [changes, List.filterMap_map, List.filterMap_eq_nil_iff]
    intro i hi
    rw [Function.comp_apply, W.change_entry hk hslot (by simpa [he] using hi), if_neg]
    rw [slotAddr_eq]
    omega
  have ht := logNextWAddr_eq t
  have htlt := t.isLt
  constructor
  · rw [turns, placed, placed_append, placed_eq_nil (hentry _ (by omega)), List.length_map,
      List.length_range, he]
    simp [placed, Turn.change]
  · rw [turns, placed, placed_append, placed_eq_nil (hentry _ (by omega)), List.length_map,
      List.length_range, he]
    simp [placed, Turn.change]

/-- A byte of its slot is written in one turn, and no other byte of the ring. -/
theorem WriteTurns.placed_byte (he : e.length = 20) {k : ℕ} (hk : k < 300)
    (hslot : W.slot = slotAddr t k) (ha : 256 ≤ a) :
    placed (.byte a) place 0 (W.turns t e) = if slotAddr t k ≤ a ∧ a < slotAddr t (k + 1) then
      [(place (1 + (a - slotAddr t k)), (W.bytes (a - slotAddr t k), e.getD (a - slotAddr t k) 0))]
    else [] := by
  have ht := logNextWAddr_eq t
  have htlt := t.isLt
  have hnext : slotAddr t (k + 1) = slotAddr t k + 20 := by
    rw [slotAddr_eq, slotAddr_eq]
    ring
  have hback : placed (.byte a) place 21 [(⟨.next t, W.next, advance t W.next⟩ : Turn Cell.Val),
      ⟨lowCell t, W.low, UInt8.ofNat (advance t W.next)⟩,
      ⟨highCell t, W.high, UInt8.ofNat (advance t W.next / 256)⟩] = [] := by
    simp [placed, Turn.change, show logNextWAddr t ≠ a by omega, show logNextWAddr t + 1 ≠ a by omega]
  have hentry : placed (.byte a) place 1 ((List.range e.length).map fun i =>
      (⟨.byte ((W.slot + i) % 0x10000), W.bytes i, e.getD i 0⟩ : Turn Cell.Val)) =
        if slotAddr t k ≤ a ∧ a < slotAddr t (k + 1) then
          [(place (1 + (a - slotAddr t k)), (W.bytes (a - slotAddr t k), e.getD (a - slotAddr t k) 0))]
        else [] := by
    by_cases hle : slotAddr t k ≤ a
    · have hchange : ∀ i < e.length,
          (⟨.byte ((W.slot + i) % 0x10000), W.bytes i, e.getD i 0⟩ : Turn Cell.Val).change (.byte a) =
            if i = a - slotAddr t k then
              some (W.bytes (a - slotAddr t k), e.getD (a - slotAddr t k) 0) else none := by
        intro i hi
        rw [W.change_entry hk hslot (he ▸ hi)]
        exact if_congr (and_iff_left hle) rfl rfl
      rw [placed_range 1 e.length hchange, he]
      exact if_congr (by omega) rfl rfl
    · rw [if_neg fun h => hle h.1]
      refine placed_eq_nil ?_ 1
      rw [changes, List.filterMap_map, List.filterMap_eq_nil_iff]
      intro i hi
      rw [Function.comp_apply, W.change_entry hk hslot (by simpa [he] using hi),
        if_neg fun h => hle h.2]
  have hfirst : (⟨.next t, W.slot, W.slot⟩ : Turn Cell.Val).change (.byte a) = none :=
    change_of_ne (by simp)
  rw [turns, placed, placed_append, hentry, List.length_map, List.length_range, he, hback, hfirst,
    List.append_nil]
  rfl

end Changes

end Log

end VectorFence
