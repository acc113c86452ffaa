import VectorFence.CString
import VectorFence.Eeprom

/-! The scanners for addresses, `ipStrToInt` and `macStrToInt`. They are one loop with two sets of
    values:

        "192.168.0.22"         four sections, base 10, at most 255 each
        "02:00:00:31:00:28"    six sections, base 16

    A section goes into the array at the separator behind it, the last one at the end of the string,
    always into the last place. How many separators there were is not asked there, and a section is
    an `int`, which wraps. -/

namespace VectorFence

/-- What the two scanners differ in. -/
structure AddrFormat where
  len : ℕ
  sep : UInt8
  base : ℕ
  digit : UInt8 → Option ℕ
  len_pos : 0 < len
  digit_sep : digit sep = none

namespace AddrFormat

def ip : AddrFormat where
  len := 4
  sep := 46
  base := 10
  digit c := if 48 ≤ c ∧ c ≤ 57 then some (c.toNat - 48) else none
  len_pos := Nat.succ_pos 3
  digit_sep := rfl

def mac : AddrFormat where
  len := 6
  sep := 58
  base := 16
  digit c :=
    if 48 ≤ c ∧ c ≤ 57 then some (c.toNat - 48)
    else if 97 ≤ c ∧ c ≤ 102 then some (c.toNat - 97 + 10)
    else if 65 ≤ c ∧ c ≤ 70 then some (c.toNat - 65 + 10)
    else none
  len_pos := Nat.succ_pos 5
  digit_sep := rfl

variable (g : AddrFormat)

/-- The loop: the assignments to the array, each with its place, and whether the result is 0. -/
def scan : ℤ → ℕ → CStr → List (ℕ × UInt8) × Bool
  | sect, _, [] =>
      if 0 ≤ sect ∧ sect ≤ 255 then ([(g.len - 1, UInt8.ofInt sect)], true) else ([], false)
  | sect, dot, c :: s =>
      if c = g.sep then
        if dot + 1 > g.len - 1 ∨ s.head? = some g.sep then ([], false)
        else if 0 ≤ sect ∧ sect ≤ 255 then
          let r := scan 0 (dot + 1) s
          ((dot, UInt8.ofInt sect) :: r.1, r.2)
        else ([], false)
      else match g.digit c with
        | some d => scan (s32 (sect * g.base + d)) dot s
        | none => ([], false)

end AddrFormat

/-- One assignment to an array. -/
def putByte {n : ℕ} (a : Fin n → UInt8) (w : ℕ × UInt8) : Fin n → UInt8 :=
  fun j => if j = w.1 then w.2 else a j

/-- The array after `ipStrToInt(ip_int, ip)`, and whether it returns 0. -/
def ipStrToInt (ipInt : Fin 4 → UInt8) (ip : CStr) : (Fin 4 → UInt8) × Bool :=
  let r := AddrFormat.ip.scan 0 0 ip
  (r.1.foldl putByte ipInt, r.2)

def macStrToInt (macInt : Fin 6 → UInt8) (mac : CStr) : (Fin 6 → UInt8) × Bool :=
  let r := AddrFormat.mac.scan 0 0 mac
  (r.1.foldl putByte macInt, r.2)

example : (ipStrToInt (fun _ => 7) (CStr.lit "192.168.0.22")).1 2 = 0 := by decide

namespace AddrFormat

/-! ### Sections -/

variable (g : AddrFormat)

/-- The number that a section spells. -/
def value (x : CStr) : ℕ := x.foldl (fun n c => n * g.base + (g.digit c).getD 0) 0

def Digits (x : CStr) : Prop := ∀ c ∈ x, (g.digit c).isSome

/-- A section the loop takes: digits only, and the `int` they make in the range of a byte. -/
def Passes (x : CStr) : Prop := g.Digits x ∧ g.value x % 0x100000000 ≤ 255

instance (x : CStr) : Decidable (g.Digits x) := List.decidableBAll (fun c => (g.digit c).isSome) x

instance (x : CStr) : Decidable (g.Passes x) := by unfold Passes; infer_instance

/-- The string of some sections. -/
def join (xs : List CStr) : CStr := [g.sep].intercalate xs

/-- The `int` may wrap at every digit or once at the end. -/
theorem s32_digit (a b d : ℤ) : s32 (s32 a * b + d) = s32 (a * b + d) := by
  rw [s32, s32, s32, ← Int.bmod_add_bmod, Int.bmod_mul_bmod, Int.bmod_add_bmod]

theorem s32_range (v : ℕ) : (0 ≤ s32 v ∧ s32 v ≤ 255) ↔ v % 0x100000000 ≤ 255 := by
  rw [s32, Int.bmod_def]
  split_ifs with h <;> omega

theorem s32_byte (v : ℕ) : UInt8.ofInt (s32 v) = UInt8.ofNat v := by
  apply UInt8.toNat_inj.mp
  have hmod : s32 v % 2 ^ 8 = ((v % 256 : ℕ) : ℤ) := by
    rw [s32, Int.bmod_def]
    split_ifs with h <;> omega
  rw [UInt8.ofInt, hmod, Int.toNat_natCast, UInt8.toNat_ofNat', UInt8.toNat_ofNat']
  omega

variable {g} {x t : CStr} {dot : ℕ}

theorem Digits.ne_sep (h : g.Digits x) : g.sep ∉ x := by
  intro hmem
  have hsome := h _ hmem
  rw [g.digit_sep] at hsome
  exact absurd hsome (by simp)

/-- Digits are taken into the section. -/
theorem scan_digits (hx : g.Digits x) (v : ℕ) : g.scan (s32 v) dot (x ++ t) =
    g.scan (s32 (x.foldl (fun n c => n * g.base + (g.digit c).getD 0) v : ℕ)) dot t := by
  induction x generalizing v with
  | nil => rfl
  | cons c x ih =>
    have hne : c ≠ g.sep := fun hc => hx.ne_sep (by simp [hc])
    obtain ⟨d, hd⟩ := Option.isSome_iff_exists.mp (hx c (List.mem_cons_self ..))
    have hval : s32 (s32 v * g.base + d) = s32 ((v * g.base + d : ℕ) : ℤ) := by
      rw [s32_digit]
      push_cast
      rfl
    rw [List.cons_append, scan, if_neg hne]
    simp only [hd, hval]
    rw [ih (fun c hc => hx c (List.mem_cons_of_mem _ hc)), List.foldl_cons, hd, Option.getD_some]

/-- A character that is no digit ends the loop. -/
theorem scan_bad (hx : ¬g.Digits x) (hsep : g.sep ∉ x) (v : ℤ) :
    g.scan v dot (x ++ t) = ([], false) := by
  induction x generalizing v with
  | nil => exact absurd (fun c hc => absurd hc (by simp)) hx
  | cons c x ih =>
    have hne : c ≠ g.sep := fun hc => hsep (by simp [hc])
    rw [List.cons_append, scan, if_neg hne]
    cases hd : g.digit c with
    | none => rfl
    | some d =>
      refine ih (fun hdig => hx ?_) (fun hmem => hsep (List.mem_cons_of_mem _ hmem)) _
      rintro c' hc'
      rcases List.mem_cons.mp hc' with rfl | hc'
      · rw [hd]; rfl
      · exact hdig c' hc'

theorem scan_section (hx : g.Digits x) :
    g.scan 0 dot (x ++ t) = g.scan (s32 (g.value x)) dot t := scan_digits hx 0

/-- The last section. -/
theorem scan_last (hsep : g.sep ∉ x) : g.scan 0 dot x =
    if g.Passes x then ([(g.len - 1, UInt8.ofNat (g.value x))], true) else ([], false) := by
  by_cases hx : g.Digits x
  · have h : g.scan 0 dot (x ++ []) = g.scan (s32 (g.value x)) dot [] := scan_section hx
    rw [List.append_nil] at h
    rw [h, scan, s32_byte]
    exact if_congr ((s32_range _).trans (and_iff_right hx).symm) rfl rfl
  · have h : g.scan 0 dot (x ++ []) = ([], false) := scan_bad hx hsep 0
    rw [List.append_nil] at h
    rw [h, if_neg fun hp => hx hp.1]

/-- A section with a separator behind it. -/
theorem scan_sep (hsep : g.sep ∉ x) : g.scan 0 dot (x ++ g.sep :: t) =
    if g.Passes x ∧ dot + 1 < g.len ∧ t.head? ≠ some g.sep then
      ((dot, UInt8.ofNat (g.value x)) :: (g.scan 0 (dot + 1) t).1, (g.scan 0 (dot + 1) t).2)
    else ([], false) := by
  have hlen := g.len_pos
  by_cases hx : g.Digits x
  · rw [scan_section hx, scan, if_pos rfl, s32_byte]
    have hrange := s32_range (g.value x)
    by_cases hp : g.value x % 0x100000000 ≤ 255
    · rw [if_pos (hrange.mpr hp)]
      by_cases hstop : dot + 1 > g.len - 1 ∨ t.head? = some g.sep
      · rw [if_pos hstop, if_neg]
        rintro ⟨-, hlt, hhead⟩
        exact hstop.elim (by omega) hhead
      · rw [if_neg hstop, if_pos]
        push Not at hstop
        exact ⟨⟨hx, hp⟩, by omega, hstop.2⟩
    · rw [if_neg fun h => hp (hrange.mp h), ite_self, if_neg fun h => hp h.1.2]
  · rw [scan_bad hx hsep, if_neg fun h => hx h.1.1]

/-! ### Strings of sections -/

theorem join_cons_cons (x y : CStr) (xs : List CStr) :
    g.join (x :: y :: xs) = x ++ g.sep :: g.join (y :: xs) := by
  simp [join, List.intercalate_cons_cons]

theorem join_singleton (x : CStr) : g.join [x] = x := by simp [join]

/-- The next character is a separator where an empty section follows that is not the last one. -/
theorem head_join (hsep : g.sep ∉ x) (xs : List CStr) :
    (g.join (x :: xs)).head? = some g.sep ↔ x = [] ∧ xs ≠ [] := by
  cases x with
  | nil =>
    cases xs with
    | nil => simp [join_singleton]
    | cons y ys => simp [join_cons_cons]
  | cons c x =>
    have hne : c ≠ g.sep := fun hc => hsep (by simp [hc])
    cases xs with
    | nil => simp [join_singleton, hne]
    | cons y ys => simp [join_cons_cons, hne]

/-- Which strings the loop accepts. -/
theorem scan_accepts (x : CStr) (xs : List CStr) (hsep : ∀ y ∈ x :: xs, g.sep ∉ y)
    (hdot : dot < g.len) :
    (g.scan 0 dot (g.join (x :: xs))).2 = true ↔
      dot + (x :: xs).length ≤ g.len ∧ (∀ y ∈ x :: xs, g.Passes y) ∧ ∀ y ∈ xs.dropLast, y ≠ [] := by
  induction xs generalizing x dot with
  | nil =>
    rw [join_singleton, scan_last (hsep x (List.mem_cons_self ..))]
    split_ifs with hp
    · simpa [hp] using hdot
    · simp [hp]
  | cons y ys ih =>
    rw [List.forall_mem_cons] at hsep
    have hhead : (g.join (y :: ys)).head? ≠ some g.sep ↔ (y = [] → ys = []) := by
      rw [ne_eq, head_join (hsep.2 y (List.mem_cons_self ..))]
      tauto
    rw [join_cons_cons, scan_sep hsep.1]
    split_ifs with h
    · obtain ⟨hp, hlt, hy⟩ := h
      rw [hhead] at hy
      have hall : (∀ z ∈ x :: y :: ys, g.Passes z) ↔ ∀ z ∈ y :: ys, g.Passes z := by
        rw [List.forall_mem_cons, and_iff_right hp]
      rw [ih y hsep.2 hlt, hall]
      refine and_congr ?_ (and_congr_right fun _ => ?_)
      · simp only [List.length_cons]
        omega
      · cases ys with
        | nil => simp
        | cons z zs =>
          have hne : y ≠ [] := fun hnil => absurd (hy hnil) (by simp)
          rw [List.dropLast_cons_cons, List.forall_mem_cons, and_iff_right hne]
    · refine iff_of_false (by simp) ?_
      rintro ⟨hlen, hpass, hnil⟩
      refine h ⟨hpass x (List.mem_cons_self ..), ?_, hhead.mpr fun hy => ?_⟩
      · simp only [List.length_cons] at hlen
        omega
      · by_contra hys
        obtain ⟨z, zs, rfl⟩ := List.exists_cons_of_ne_nil hys
        exact hnil y (by simp) hy

/-- As many sections as there are places go into the array in their order. -/
theorem scan_bytes {n : ℕ} (hn : n = g.len) (a : Fin n → UInt8) (x : CStr) (xs : List CStr)
    (hsep : ∀ y ∈ x :: xs, g.sep ∉ y) (hlen : dot + (x :: xs).length = g.len)
    (hok : (g.scan 0 dot (g.join (x :: xs))).2 = true) (j : Fin n) :
    (g.scan 0 dot (g.join (x :: xs))).1.foldl putByte a j =
      if j < dot then a j else UInt8.ofNat (g.value ((x :: xs).getD (j - dot) [])) := by
  have hj := j.isLt
  induction xs generalizing x dot a with
  | nil =>
    rw [List.length_singleton] at hlen
    rw [join_singleton, scan_last (hsep x (List.mem_cons_self ..))] at hok ⊢
    split_ifs at hok ⊢ with hp hlt
    · rw [List.foldl_cons, List.foldl_nil, putByte, if_neg (by omega)]
    · rw [List.foldl_cons, List.foldl_nil, putByte, if_pos (by omega), show (j : ℕ) - dot = 0 by omega]
      rfl
  | cons y ys ih =>
    rw [List.forall_mem_cons] at hsep
    rw [join_cons_cons, scan_sep hsep.1] at hok ⊢
    split_ifs at hok ⊢ with h hlt
    · rw [List.foldl_cons, ih _ y hsep.2 (by simp only [List.length_cons] at hlen ⊢; omega) hok,
        if_pos (by omega), putByte, if_neg (by omega)]
    · rw [List.foldl_cons, ih _ y hsep.2 (by simp only [List.length_cons] at hlen ⊢; omega) hok]
      by_cases heq : (j : ℕ) = dot
      · rw [if_pos (by omega), putByte, if_pos heq, heq, Nat.sub_self, List.getD_cons_zero]
      · rw [if_neg (by omega), show (j : ℕ) - dot = (j - (dot + 1)) + 1 by omega, List.getD_cons_succ]

/-! ### The grammar -/

variable (g)

/-- The sections of a string. -/
def parts (s : CStr) : List CStr := s.splitOn g.sep

/-- An address as it should be written: every section is there, and none is too large. -/
def Grammar (s : CStr) : Prop :=
  (g.parts s).length = g.len ∧ ∀ x ∈ g.parts s, x ≠ [] ∧ g.Digits x ∧ g.value x ≤ 255

/-- The loop does not accept the string: it has too many sections, an empty one between two
    separators, a character that is no digit, or a section whose `int` is out of range. -/
def Refused (s : CStr) : Prop :=
  g.len < (g.parts s).length ∨ (∃ x ∈ g.parts s, ¬g.Passes x) ∨ [] ∈ (g.parts s).tail.dropLast

/-- The string has the right number of sections, the first and the last are not empty, and no
    section wraps. -/
def Complete (s : CStr) : Prop :=
  (g.parts s).length = g.len ∧ (g.parts s).head? ≠ some [] ∧ (g.parts s).getLast? ≠ some [] ∧
    ∀ x ∈ g.parts s, g.value x < 0x100000000

/-- A scanner accepts a string exactly when it is in the grammar, and then writes the bytes it
    spells. -/
def Exact {n : ℕ} (parse : (Fin n → UInt8) → CStr → (Fin n → UInt8) × Bool) (s : CStr) : Prop :=
  ∀ a, ((parse a s).2 = true ↔ g.Grammar s) ∧
    (g.Grammar s → ∀ j : Fin n, (parse a s).1 j = UInt8.ofNat (g.value ((g.parts s).getD j [])))

variable {g} {s : CStr}

theorem join_parts (s : CStr) : g.join (g.parts s) = s := List.intercalate_splitOn g.sep

theorem parts_sep (s : CStr) : ∀ x ∈ g.parts s, g.sep ∉ x := by
  induction s with
  | nil => simp [parts]
  | cons c s ih =>
    rw [parts, List.splitOn_cons_eq_if_modifyHead]
    split_ifs with hc
    · rw [List.forall_mem_cons]
      exact ⟨by simp, ih⟩
    · rw [parts] at ih
      obtain ⟨x, xs, hxs⟩ := List.exists_cons_of_ne_nil (List.splitOn_ne_nil g.sep s)
      rw [hxs, List.forall_mem_cons] at ih
      rw [hxs, List.modifyHead_cons, List.forall_mem_cons]
      have hne : g.sep ≠ c := fun h => hc (by simp [h])
      exact ⟨by simp [hne, ih.1], ih.2⟩

/-- The string of some good sections is in the grammar. -/
theorem parts_join {xs : List CStr} (hlen : xs.length = g.len)
    (hxs : ∀ x ∈ xs, x ≠ [] ∧ g.Digits x ∧ g.value x ≤ 255) :
    g.parts (g.join xs) = xs ∧ g.Grammar (g.join xs) := by
  have hne : xs ≠ [] := List.ne_nil_of_length_pos (by rw [hlen]; exact g.len_pos)
  have hparts : g.parts (g.join xs) = xs :=
    List.splitOn_intercalate g.sep (fun x hx => (hxs x hx).2.1.ne_sep) hne
  rw [Grammar, hparts]
  exact ⟨rfl, hlen, hxs⟩

theorem exists_parts (s : CStr) : ∃ x xs, g.parts s = x :: xs :=
  List.exists_cons_of_ne_nil (List.splitOn_ne_nil g.sep s)

/-- The loop accepts what it does not refuse. -/
theorem scan_ok_iff (s : CStr) : (g.scan 0 0 s).2 = true ↔ ¬g.Refused s := by
  obtain ⟨x, xs, hparts⟩ := g.exists_parts s
  have h := scan_accepts x xs (hparts ▸ parts_sep s) g.len_pos
  rw [← hparts, join_parts, hparts, Nat.zero_add] at h
  rw [h, Refused, hparts, List.tail_cons]
  push Not
  refine and_congr_right fun _ => and_congr_right fun _ => ?_
  exact ⟨fun hne hmem => hne _ hmem rfl, fun hmem y hy hnil => hmem (hnil ▸ hy)⟩

theorem Grammar.not_refused (h : g.Grammar s) : ¬g.Refused s := by
  obtain ⟨hlen, hparts⟩ := h
  rintro (hlt | ⟨x, hx, hpass⟩ | hnil)
  · omega
  · obtain ⟨-, hdig, hval⟩ := hparts x hx
    exact hpass ⟨hdig, by omega⟩
  · exact (hparts [] (List.mem_of_mem_tail (List.mem_of_mem_dropLast hnil))).1 rfl

/-- Only the first and the last section of a string that is not refused can be empty. -/
theorem mem_parts_ne_nil {x : CStr} {xs : List CStr} (hmid : [] ∉ xs.dropLast) (hhead : x ≠ [])
    (hlast : (x :: xs).getLast? ≠ some []) : ∀ y ∈ x :: xs, y ≠ [] := by
  rw [List.forall_mem_cons]
  refine ⟨hhead, ?_⟩
  rcases xs.eq_nil_or_concat with rfl | ⟨ys, z, rfl⟩
  · simp
  · rw [List.concat_eq_append, List.dropLast_concat] at hmid
    rw [List.concat_eq_append, ← List.cons_append, List.getLast?_concat] at hlast
    intro y hy hnil
    rw [List.concat_eq_append, List.mem_append, List.mem_singleton, hnil] at hy
    rcases hy with hy | hz
    · exact hmid hy
    · exact hlast (congrArg some hz.symm)

/-- Among the strings that are not refused the complete ones are those of the grammar. -/
theorem grammar_iff_complete (h : ¬g.Refused s) : g.Grammar s ↔ g.Complete s := by
  obtain ⟨x, xs, hparts⟩ := g.exists_parts s
  simp only [Refused, hparts, List.tail_cons, not_or, not_exists, not_and, not_not] at h
  obtain ⟨-, hpass, hmid⟩ := h
  simp only [Grammar, Complete, hparts, List.head?_cons]
  refine and_congr_right fun _ => ⟨fun hall => ⟨?_, ?_, fun y hy => ?_⟩, ?_⟩
  · exact fun hx => (hall x (List.mem_cons_self ..)).1 (Option.some.inj hx)
  · exact fun hlast => (hall [] (List.mem_of_getLast? hlast)).1 rfl
  · have hval := (hall y hy).2.2
    omega
  · rintro ⟨hhead, hlast, hval⟩ y hy
    have hne := mem_parts_ne_nil hmid (fun hx => hhead (congrArg some hx)) hlast y hy
    obtain ⟨hdig, hmod⟩ := hpass y hy
    rw [Nat.mod_eq_of_lt (hval y hy)] at hmod
    exact ⟨hne, hdig, hmod⟩

/-- The bytes of a string of the grammar. -/
theorem Grammar.bytes (h : g.Grammar s) {n : ℕ} (hn : n = g.len) (a : Fin n → UInt8) (j : Fin n) :
    (g.scan 0 0 s).1.foldl putByte a j = UInt8.ofNat (g.value ((g.parts s).getD j [])) := by
  have hok := (scan_ok_iff s).mpr h.not_refused
  obtain ⟨x, xs, hparts⟩ := g.exists_parts s
  have hlen : 0 + (x :: xs).length = g.len := by rw [Nat.zero_add, ← hparts]; exact h.1
  have hbytes := scan_bytes hn a x xs (hparts ▸ parts_sep s) hlen
  rw [← hparts, join_parts] at hbytes
  rw [hbytes hok j, if_neg (by omega), Nat.sub_zero]

/-- A scanner is exact for what it refuses and for what is complete. -/
theorem exact_iff {n : ℕ} (hn : n = g.len) {parse : (Fin n → UInt8) → CStr → (Fin n → UInt8) × Bool}
    (hparse : ∀ a s, parse a s = ((g.scan 0 0 s).1.foldl putByte a, (g.scan 0 0 s).2)) (s : CStr) :
    g.Exact parse s ↔ g.Refused s ∨ g.Complete s := by
  simp only [Exact, hparse, scan_ok_iff]
  constructor
  · intro h
    by_cases href : g.Refused s
    · exact Or.inl href
    · exact Or.inr ((grammar_iff_complete href).mp ((h fun _ => 0).1.mp href))
  · intro h a
    refine ⟨⟨fun href => ?_, Grammar.not_refused⟩, fun hgram j => hgram.bytes hn a j⟩
    exact (grammar_iff_complete href).mpr (h.resolve_left href)

end AddrFormat

open AddrFormat

/-- `ipStrToInt` and `macStrToInt` accept exactly their addresses, but for incomplete ones and for
    sections that wrap. -/
theorem addrStrToInt_exact_iff (s : CStr) :
    (ip.Exact ipStrToInt s ↔ ip.Refused s ∨ ip.Complete s) ∧
      (mac.Exact macStrToInt s ↔ mac.Refused s ∨ mac.Complete s) :=
  ⟨exact_iff rfl (fun _ _ => rfl) s, exact_iff rfl (fun _ _ => rfl) s⟩

/-- Two sections pass for an address: `1.2` is stored in the first and the last byte. -/
theorem not_addrStrToInt_exact : ¬ ∀ s, ip.Exact ipStrToInt s ∧ mac.Exact macStrToInt s := by
  intro h
  have hgram := ((h (CStr.lit "1.2")).1 fun _ => 0).1.mp (by decide)
  exact absurd hgram.1 (by decide)

end VectorFence
