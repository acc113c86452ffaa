import Mathlib.Tactic

/-! The 24C256 EEPROM behind `24cxx.c`. A memory is one byte for each address; every operation of
    the driver is a sequence of one-byte transactions, and each address parameter is a `u16`, so it
    is cut to 16 bits where the transaction is made.

    The multi-byte operations are the driver's own loops: `at24cxxWrite` and `at24cxxRead` walk a
    buffer upwards, `at24cxxWriteLenByte` and `at24cxxReadLenByte` store a number low byte first.
    `burn` replays a list of one-byte writes, which is how an interrupted operation is stated. -/

namespace VectorFence

/-- Contents of the EEPROM: one byte for each address. -/
abbrev Eeprom := ℕ → UInt8

/-- `(u32)x`: the value of an integer expression stored in a 32-bit variable. -/
def u32 (x : ℤ) : ℕ := (x % 0x100000000).toNat

theorem u32_eq {x : ℤ} {n : ℕ} (hx : x = n) (hn : n < 0x100000000) : u32 x = n := by
  rw [u32]; omega

theorem u32_lt (x : ℤ) : u32 x < 0x100000000 := by rw [u32]; omega

/-- A value that is a little too small or too large for 32 bits. -/
theorem u32_cases {x : ℤ} (h : -0x100000000 ≤ x) (h' : x < 0x200000000) :
    (u32 x : ℤ) = x ∨ (x < 0 ∧ (u32 x : ℤ) = x + 0x100000000) ∨
      (0x100000000 ≤ x ∧ (u32 x : ℤ) = x - 0x100000000) := by
  rw [u32]
  omega

/-- The value of an expression in an `s32`, or in an `int`. -/
def s32 (x : ℤ) : ℤ := x.bmod 0x100000000

namespace Eeprom

def at24cxxReadOneByte (m : Eeprom) (readAddr : ℕ) : UInt8 := m (readAddr % 0x10000)

def at24cxxWriteOneByte (m : Eeprom) (writeAddr : ℕ) (dataToWrite : UInt8) : Eeprom :=
  Function.update m (writeAddr % 0x10000) dataToWrite

/-- Store the low `len` bytes of a number, low byte first. -/
def at24cxxWriteLenByte (m : Eeprom) (writeAddr dataToWrite len : ℕ) : Eeprom :=
  (List.range len).foldl (fun m t =>
    at24cxxWriteOneByte m (writeAddr + t) (UInt8.ofNat (dataToWrite >>> (8 * t) &&& 0xff))) m

/-- Read a number of `len` bytes: the loop shifts in the bytes from the highest address down. -/
def at24cxxReadLenByte (m : Eeprom) (readAddr len : ℕ) : ℕ :=
  (List.range len).foldl (fun temp t =>
    (temp <<< 8 + (at24cxxReadOneByte m (readAddr + len - t - 1)).toNat) % 0x100000000) 0

def at24cxxRead (m : Eeprom) (readAddr : ℕ) : ℕ → List UInt8
  | 0 => []
  | numToRead + 1 => at24cxxReadOneByte m readAddr :: at24cxxRead m (readAddr + 1) numToRead

def at24cxxWrite (m : Eeprom) (writeAddr : ℕ) : List UInt8 → Eeprom
  | [] => m
  | b :: pBuffer => at24cxxWrite (at24cxxWriteOneByte m writeAddr b) (writeAddr + 1) pBuffer

/-- Write `0xFF` to `eraseLen` consecutive bytes. -/
def eraseEEProm (m : Eeprom) (eraseAddr : ℕ) : ℕ → Eeprom
  | 0 => m
  | eraseLen + 1 => eraseEEProm (at24cxxWriteOneByte m eraseAddr 0xFF) (eraseAddr + 1) eraseLen

/-- Replay one-byte writes in order. -/
def burn (m : Eeprom) (ws : List (ℕ × UInt8)) : Eeprom :=
  ws.foldl (fun m w => at24cxxWriteOneByte m w.1 w.2) m

/-! ### One byte -/

@[simp] theorem readOneByte_writeOneByte (m : Eeprom) (a b : ℕ) (v : UInt8) :
    at24cxxReadOneByte (at24cxxWriteOneByte m a v) b =
      if b % 0x10000 = a % 0x10000 then v else at24cxxReadOneByte m b := by
  simp only [at24cxxReadOneByte, at24cxxWriteOneByte, Function.update_apply]

theorem readOneByte_eq (m : Eeprom) {a : ℕ} (h : a < 0x10000) : at24cxxReadOneByte m a = m a := by
  rw [at24cxxReadOneByte, Nat.mod_eq_of_lt h]

theorem writeOneByte_apply (m : Eeprom) {a : ℕ} (h : a < 0x10000) (v : UInt8) (x : ℕ) :
    at24cxxWriteOneByte m a v x = if x = a then v else m x := by
  rw [at24cxxWriteOneByte, Nat.mod_eq_of_lt h, Function.update_apply]

/-! ### Buffers -/

@[simp] theorem length_read (m : Eeprom) (a n : ℕ) : (at24cxxRead m a n).length = n := by
  induction n generalizing a with
  | zero => rfl
  | succ n ih => rw [at24cxxRead, List.length_cons, ih]

/-- A read depends only on the bytes it covers. -/
theorem read_congr {m m' : Eeprom} : ∀ (n a : ℕ), a + n ≤ 0x10000 →
    (∀ x, a ≤ x → x < a + n → m x = m' x) → at24cxxRead m a n = at24cxxRead m' a n
  | 0, _, _, _ => rfl
  | n + 1, a, hb, h => by
      rw [at24cxxRead, at24cxxRead, readOneByte_eq m (by omega), readOneByte_eq m' (by omega),
        h a le_rfl (by omega), read_congr n (a + 1) (by omega) fun x h0 h1 => h x (by omega) (by omega)]

/-- What a buffer write leaves at each address: the buffer where it lands, the old byte elsewhere. -/
theorem write_apply : ∀ (buf : List UInt8) (m : Eeprom) (a : ℕ), a + buf.length ≤ 0x10000 →
    ∀ x, at24cxxWrite m a buf x = if a ≤ x ∧ x < a + buf.length then buf.getD (x - a) 0 else m x
  | [], m, a, _, x => by rw [at24cxxWrite, if_neg (by simp only [List.length_nil]; omega)]
  | b :: buf, m, a, hb, x => by
      rw [List.length_cons] at hb
      rw [at24cxxWrite, write_apply buf _ (a + 1) (by omega) x, writeOneByte_apply m (by omega),
        List.length_cons]
      by_cases hx : x = a
      · subst hx
        rw [if_neg (by omega), if_pos rfl, if_pos (by omega), Nat.sub_self, List.getD_cons_zero]
      · by_cases hin : a + 1 ≤ x ∧ x < a + 1 + buf.length
        · rw [if_pos hin, if_pos (by omega), show x - a = (x - (a + 1)) + 1 by omega,
            List.getD_cons_succ]
        · rw [if_neg hin, if_neg hx, if_neg (by omega)]

/-- A buffer write leaves the addresses before and behind the buffer alone. -/
theorem write_frame (m : Eeprom) {buf : List UInt8} {a x : ℕ} (hb : a + buf.length ≤ 0x10000)
    (hx : x < a ∨ a + buf.length ≤ x) : at24cxxWrite m a buf x = m x := by
  rw [write_apply _ _ _ hb, if_neg (by omega)]

theorem getElem_read (m : Eeprom) : ∀ (n a i : ℕ) (h : i < (at24cxxRead m a n).length),
    a + n ≤ 0x10000 → (at24cxxRead m a n)[i] = m (a + i)
  | 0, _, _, h, _ => by simp [at24cxxRead] at h
  | _ + 1, _, 0, _, _ => readOneByte_eq m (by omega)
  | n + 1, a, i + 1, h, hb => by
      rw [length_read] at h
      simp only [at24cxxRead, List.getElem_cons_succ]
      rw [getElem_read m n (a + 1) i (by simpa using h) (by omega)]
      congr 1; omega

/-- Reading back a buffer that was written. -/
theorem read_write (m : Eeprom) (buf : List UInt8) (a : ℕ) (hb : a + buf.length ≤ 0x10000) :
    at24cxxRead (at24cxxWrite m a buf) a buf.length = buf := by
  refine List.ext_getElem (length_read ..) fun i h0 h1 => ?_
  rw [getElem_read _ _ _ _ h0 hb, write_apply buf m a hb, if_pos (by omega),
    Nat.add_sub_cancel_left, List.getD_eq_getElem?_getD, List.getElem?_eq_getElem h1,
    Option.getD_some]

/-! ### Two-byte numbers -/

theorem ofNat_byte (v t : ℕ) : UInt8.ofNat (v >>> (8 * t) &&& 0xff) = UInt8.ofNat (v / 256 ^ t) := by
  apply UInt8.toNat_inj.mp
  rw [show (0xff : ℕ) = 2 ^ 8 - 1 by rfl, Nat.and_two_pow_sub_one_eq_mod, Nat.shiftRight_eq_div_pow,
    pow_mul]
  simp

theorem writeLenByte_two (m : Eeprom) (a v : ℕ) : at24cxxWriteLenByte m a v 2 =
    at24cxxWriteOneByte (at24cxxWriteOneByte m a (UInt8.ofNat v)) (a + 1) (UInt8.ofNat (v / 256)) := by
  simp only [at24cxxWriteLenByte, ofNat_byte, List.range_succ, List.range_zero, List.nil_append,
    List.singleton_append, List.foldl_cons, List.foldl_nil, pow_zero, pow_one, Nat.div_one,
    Nat.add_zero]

theorem readLenByte_two (m : Eeprom) (a : ℕ) : at24cxxReadLenByte m a 2 =
    (at24cxxReadOneByte m (a + 1)).toNat * 256 + (at24cxxReadOneByte m a).toNat := by
  have h0 := (at24cxxReadOneByte m (a + 1)).toNat_lt
  have h1 := (at24cxxReadOneByte m a).toNat_lt
  simp only [at24cxxReadLenByte, List.range_succ, List.range_zero, List.nil_append,
    List.singleton_append, List.foldl_cons, List.foldl_nil, Nat.shiftLeft_eq]
  simp only [show a + 2 - 0 - 1 = a + 1 by omega, show a + 2 - 1 - 1 = a by omega]
  omega

end Eeprom

end VectorFence
