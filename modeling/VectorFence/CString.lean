import Mathlib.Tactic
import Mathlib.Data.List.TakeWhile

/-! The strings of C: their bytes without the terminating NUL, and the two conversions the front
    ends use, `atoi` for what was entered and `sprintf` for what is shown.

        "  -12kg" ──atoi──▶ -12 ──(u8)──▶ 244 -/

namespace VectorFence

/-- The bytes of a C string. -/
abbrev CStr := List UInt8

namespace CStr

/-- A string literal of the source. -/
def lit (s : String) : CStr := s.toList.map fun c => UInt8.ofNat c.toNat

/-- `isspace`. -/
def isSpace (c : UInt8) : Bool := c = 32 || (9 ≤ c && c ≤ 13)

def isDigit (c : UInt8) : Bool := 48 ≤ c && c ≤ 57

/-- The number that the digits at the beginning of a string make. -/
def digits (s : CStr) : ℕ := (s.takeWhile isDigit).foldl (fun n c => n * 10 + (c.toNat - 48)) 0

/-- `strtol` takes the nearest value there is. -/
def clampInt (x : ℤ) : ℤ := max (-0x80000000) (min 0x7FFFFFFF x)

/-- `atoi`: white space, a sign and digits; what follows is ignored. -/
def atoi (s : CStr) : ℤ :=
  match s.dropWhile isSpace with
  | 45 :: rest => clampInt (-(digits rest : ℤ))
  | 43 :: rest => clampInt (digits rest)
  | rest => clampInt (digits rest)

/-- `(u8)atoi(s)`. -/
def u8 (s : CStr) : UInt8 := UInt8.ofInt (atoi s)

/-- `(u16)atoi(s)`. -/
def u16 (s : CStr) : UInt16 := UInt16.ofInt (atoi s)

/-- `sprintf(s, "%0wd", n)` for a value that is not negative. -/
def dec (w n : ℕ) : CStr := ((Nat.toDigits 10 n).leftpad w '0').map fun c => UInt8.ofNat c.toNat

/-- `sprintf(s, "%d", x)`. -/
def int (x : ℤ) : CStr := if x < 0 then 45 :: dec 0 x.natAbs else dec 0 x.natAbs

/-- `sprintf(s, "%0wd", x)`; the sign is one of the `w` characters. -/
def pad (w : ℕ) (x : ℤ) : CStr := if x < 0 then 45 :: dec (w - 1) x.natAbs else dec w x.natAbs

example : atoi (lit " -12kg") = -12 ∧ u8 (lit "300") = 44 ∧ dec 3 20 = lit "020" := by decide

/-! ### A number and its text -/

variable {w n : ℕ} {s : CStr}

theorem isDigit_iff (c : UInt8) : isDigit c = true ↔ 48 ≤ c.toNat ∧ c.toNat ≤ 57 := by
  rw [isDigit, Bool.and_eq_true, decide_eq_true_eq, decide_eq_true_eq, UInt8.le_iff_toNat_le,
    UInt8.le_iff_toNat_le]
  rfl

/-- The byte of a digit. -/
theorem digit_byte {c : Char} (h : c.isDigit = true) :
    isDigit (UInt8.ofNat c.toNat) = true ∧ (UInt8.ofNat c.toNat).toNat = c.toNat := by
  have hc : 48 ≤ c.toNat ∧ c.toNat ≤ 57 := by
    simpa [Char.isDigit, UInt32.le_iff_toNat_le] using h
  have hbyte : (UInt8.ofNat c.toNat).toNat = c.toNat := by
    rw [UInt8.toNat_ofNat']
    omega
  rw [isDigit_iff, hbyte]
  exact ⟨hc, rfl⟩

theorem digits_of_isDigit (h : ∀ c ∈ s, isDigit c = true) :
    digits s = s.foldl (fun n c => n * 10 + (c.toNat - 48)) 0 := by
  rw [digits, List.takeWhile_eq_self_iff.mpr h]

/-- The value of the text of some digits. -/
theorem foldl_digitChars {cs : List Char} (h : ∀ c ∈ cs, c.isDigit = true) (v : ℕ) :
    (cs.map fun c => UInt8.ofNat c.toNat).foldl (fun n c => n * 10 + (c.toNat - 48)) v =
      Nat.ofDigitChars 10 cs v := by
  induction cs generalizing v with
  | nil => rfl
  | cons c cs ih =>
    rw [List.forall_mem_cons] at h
    rw [List.map_cons, List.foldl_cons, ih h.2, (digit_byte h.1).2, Nat.ofDigitChars_cons,
      Nat.mul_comm v]
    rfl

theorem isDigit_of_mem_dec (w n : ℕ) : ∀ c ∈ dec w n, isDigit c = true := by
  intro c hc
  rw [dec, List.mem_map] at hc
  obtain ⟨c, hc, rfl⟩ := hc
  rw [List.leftpad, List.mem_append, List.mem_replicate] at hc
  rcases hc with ⟨-, rfl⟩ | hc
  · rfl
  · exact (digit_byte (Nat.isDigit_of_mem_toDigits (by norm_num) le_rfl hc)).1

theorem digits_dec (w n : ℕ) : digits (dec w n) = n := by
  rw [digits_of_isDigit (isDigit_of_mem_dec w n), dec, foldl_digitChars, List.leftpad,
    Nat.ofDigitChars_append, Nat.ofDigitChars_replicate_zero, Nat.mul_zero,
    Nat.ofDigitChars_ten_toDigits]
  intro c hc
  rw [List.leftpad, List.mem_append, List.mem_replicate] at hc
  rcases hc with ⟨-, rfl⟩ | hc
  · rfl
  · exact Nat.isDigit_of_mem_toDigits (by norm_num) le_rfl hc

/-- A number is bounded by how many digits it has. -/
theorem digits_lt (h : ∀ c ∈ s, isDigit c = true) : digits s < 10 ^ s.length := by
  have hfold (v : ℕ) : s.foldl (fun n c => n * 10 + (c.toNat - 48)) v < (v + 1) * 10 ^ s.length := by
    induction s generalizing v with
    | nil => simp
    | cons c s ih =>
      rw [List.forall_mem_cons, isDigit_iff] at h
      rw [List.foldl_cons, List.length_cons, pow_succ', ← Nat.mul_assoc]
      refine (ih h.2 _).trans_le (Nat.mul_le_mul_right _ ?_)
      omega
  rw [digits_of_isDigit h]
  simpa using hfold 0

theorem clampInt_of_bounds {x : ℤ} (h : -0x80000000 ≤ x) (h' : x < 0x80000000) : clampInt x = x := by
  rw [clampInt]
  omega

/-- A text that begins with a digit has no white space and no sign. -/
theorem atoi_of_isDigit (h : ∀ c ∈ s, isDigit c = true) : atoi s = clampInt (digits s) := by
  cases s with
  | nil => rfl
  | cons c s =>
    have hc := (isDigit_iff c).mp (h c (List.mem_cons_self ..))
    have hspace : isSpace c = false := by
      rw [← Bool.not_eq_true, isSpace, Bool.or_eq_true, Bool.and_eq_true, decide_eq_true_eq,
        decide_eq_true_eq, decide_eq_true_eq, UInt8.le_iff_toNat_le, UInt8.le_iff_toNat_le]
      rintro (rfl | ⟨-, hle⟩)
      · exact absurd hc (by decide)
      · have h13 : (13 : UInt8).toNat = 13 := rfl
        omega
    rw [atoi, List.dropWhile_cons_of_neg (by simp [hspace])]
    split
    · rename_i heq
      rw [List.cons.injEq] at heq
      rw [heq.1] at hc
      exact absurd hc (by decide)
    · rename_i heq
      rw [List.cons.injEq] at heq
      rw [heq.1] at hc
      exact absurd hc (by decide)
    · rfl

theorem atoi_dec (h : n < 0x80000000) : atoi (dec w n) = n := by
  rw [atoi_of_isDigit (isDigit_of_mem_dec w n), digits_dec, clampInt_of_bounds (by omega) (by omega)]

theorem atoi_int {x : ℤ} (h : -0x80000000 ≤ x) (h' : x < 0x80000000) : atoi (int x) = x := by
  rw [int]
  split_ifs with hneg
  · have hval : atoi (45 :: dec 0 x.natAbs) = clampInt (-(digits (dec 0 x.natAbs) : ℤ)) := rfl
    rw [hval, digits_dec, clampInt_of_bounds (by omega) (by omega)]
    omega
  · rw [atoi_dec (by omega)]
    omega

theorem u8_dec (v : UInt8) : u8 (dec w v.toNat) = v := by
  have hv := v.toNat_lt
  rw [u8, atoi_dec (by omega), UInt8.ofInt]
  apply UInt8.toNat_inj.mp
  rw [UInt8.toNat_ofNat']
  omega

theorem u16_dec (v : UInt16) : u16 (dec w v.toNat) = v := by
  have hv := v.toNat_lt
  rw [u16, atoi_dec (by omega), UInt16.ofInt]
  apply UInt16.toNat_inj.mp
  rw [UInt16.toNat_ofNat']
  omega

/-- How many digits a number has. -/
theorem length_dec_le {k : ℕ} (hk : 0 < k) (hw : w ≤ k) : (dec w n).length ≤ k ↔ n < 10 ^ k := by
  rw [dec, List.length_map, List.length_leftpad, max_le_iff, and_iff_right hw]
  exact Nat.length_toDigits_le_iff (by norm_num) hk

/-! ### How long a text is -/

/-- The characters of a decimal number. -/
def width (x : ℤ) : ℕ := Nat.log 10 x.natAbs + 1 + if x < 0 then 1 else 0

theorem dec_inj {m : ℕ} (h : dec w m = dec w n) : m = n := by
  rw [← digits_dec w m, h, digits_dec]

theorem length_dec_pos (w n : ℕ) : 0 < (dec w n).length := by
  simp [dec, List.leftpad, Nat.length_toDigits_pos]

theorem length_dec_zero (n : ℕ) : (dec 0 n).length = Nat.log 10 n + 1 := by
  refine eq_of_forall_ge_iff fun k => ?_
  rcases Nat.eq_zero_or_pos k with rfl | hk
  · have hpos := length_dec_pos 0 n
    omega
  · rw [length_dec_le hk (Nat.zero_le k), Nat.succ_le_iff]
    exact ⟨Nat.log_lt_of_lt_pow' hk.ne', Nat.lt_pow_of_log_lt (by norm_num)⟩

theorem length_int (x : ℤ) : (int x).length = width x := by
  rw [int, width]
  split_ifs with hneg
  · rw [List.length_cons, length_dec_zero]
  · rw [length_dec_zero, Nat.add_zero]

theorem pad_natCast (w n : ℕ) : pad w n = dec w n := by
  rw [pad, if_neg (by omega), Int.natAbs_natCast]

theorem le_length_dec (w n : ℕ) : w ≤ (dec w n).length := by
  rw [dec, List.length_map, List.length_leftpad]
  exact le_max_left _ _

theorem le_length_pad (w : ℕ) (x : ℤ) : w ≤ (pad w x).length := by
  rw [pad]
  split_ifs
  · have := le_length_dec (w - 1) x.natAbs
    rw [List.length_cons]
    omega
  · exact le_length_dec w x.natAbs

/-- The numbers that are printed in at most `k` characters; a negative one has a digit less. -/
theorem length_pad_le {k : ℕ} {x : ℤ} (hk : 0 < k) (hw : w ≤ k) :
    (pad w x).length ≤ k ↔ -10 ^ (k - 1) < x ∧ x < 10 ^ k := by
  have hpos : (0 : ℤ) < 10 ^ (k - 1) := by positivity
  have hpos' : (0 : ℤ) < 10 ^ k := by positivity
  rw [pad]
  split_ifs with hneg
  · rw [List.length_cons, ← Nat.le_sub_iff_add_le hk]
    rcases Nat.eq_zero_or_pos (k - 1) with hzero | hlt
    · have hdec := length_dec_pos (w - 1) x.natAbs
      rw [hzero, pow_zero]
      constructor
      · intro h
        omega
      · rintro ⟨h, -⟩
        omega
    · rw [length_dec_le hlt (by omega)]
      zify
      rw [abs_of_neg hneg]
      constructor
      · intro h
        exact ⟨by linarith, by linarith⟩
      · rintro ⟨h, -⟩
        linarith
  · rw [length_dec_le hk hw]
    zify
    rw [abs_of_nonneg (not_lt.mp hneg)]
    constructor
    · intro h
      exact ⟨by linarith, h⟩
    · rintro ⟨-, h⟩
      exact h

/-- Separators stand between the parts, one less than there are parts. -/
theorem length_intercalate (c : UInt8) {xs : List CStr} (hne : xs ≠ []) :
    ([c].intercalate xs).length + 1 = (xs.map fun x => x.length + 1).sum := by
  induction xs with
  | nil => exact absurd rfl hne
  | cons x xs ih =>
    rcases xs with _ | ⟨y, ys⟩
    · simp
    · rw [List.intercalate_cons_cons, List.map_cons, List.sum_cons, ← ih (by simp)]
      simp only [List.length_append, List.length_singleton]
      omega

theorem length_intercalate_le (c : UInt8) {xs : List CStr} {k : ℕ} (h : ∀ x ∈ xs, x.length ≤ k) :
    ([c].intercalate xs).length ≤ xs.length * (k + 1) := by
  rcases eq_or_ne xs [] with rfl | hne
  · simp
  · have hsum := List.sum_le_card_nsmul (xs.map fun x => x.length + 1) (k + 1) (by
      intro n hn
      obtain ⟨x, hx, rfl⟩ := List.mem_map.mp hn
      exact Nat.succ_le_succ (h x hx))
    rw [List.length_map, smul_eq_mul, ← length_intercalate c hne] at hsum
    omega

end CStr

end VectorFence
