import VectorFence.Clock.Tokens
import VectorFence.Web.Uri

/-! The date and the time in a web request. `Datetime_CGI_Handler` hands each value to
    `splitStrToInt`, which writes as many numbers as the value has parts, and then reads three
    numbers back:

        DATE=2018-03-25 ─▶ strtol "2018" ─▶ td_tmp[0]   "03" ─▶ td_tmp[1]   "25" ─▶ td_tmp[2]
        DATE=           ─▶ strtol NULL
        DATE=1-2-3-4    ─▶ … td_tmp[3], behind the array
        DATE=7          ─▶ td_tmp[0]; td_tmp[1] and td_tmp[2] are read as they were -/

namespace VectorFence

namespace Web

open CStr

/-- What happens to `td_tmp`, and the string handed to `strtol`. -/
inductive TdAccess where
  | convert (p : Option CStr)
  | write (i : ℕ)
  | read (i : ℕ)
  deriving DecidableEq, Repr

/-- `splitStrToInt`; the first token is converted whether there is one or not. -/
def splitAccesses (delim : UInt8) (fromStr : CStr) : List TdAccess :=
  let ps := splitTokens delim fromStr
  [.convert ps.head?, .write 0] ++ (ps.tail.zipIdx 1).flatMap fun p => [.convert (some p.1), .write p.2]

/-- A call of it by the handler, with the assignments to `rtc_TD_Set` that follow. -/
def callAccesses (delim : UInt8) (fromStr : CStr) : List TdAccess :=
  splitAccesses delim fromStr ++ [.read 0, .read 1, .read 2]

/-- The calls of `Datetime_CGI_Handler`, one after the other; a value that is NULL is left out. -/
def datetimeCalls (ps : List UriParam) : List (List TdAccess) :=
  if finds ps "DATE" then
    ps.flatMap fun p =>
      (if p.1 = lit "DATE" then (p.2.map (callAccesses 45)).toList else []) ++
        if p.1 = lit "TIME" then (p.2.map (callAccesses 58)).toList else []
  else []

/-- `strtol` is given tokens, only elements of `td_tmp` are written, and only what was written is
    read. -/
structure InBuffer (l : List TdAccess) : Prop where
  converts : ∀ p, .convert p ∈ l → p ≠ none
  writes : ∀ i, .write i ∈ l → i < 3
  reads : ∀ i, .read i ∈ l → .write i ∈ l

/-! ### One call -/

variable {delim : UInt8} {v : CStr}

theorem write_mem_iff {i : ℕ} :
    .write i ∈ callAccesses delim v ↔ i = 0 ∨ 1 ≤ i ∧ i < groups delim v := by
  rw [← length_splitTokens]
  simp only [callAccesses, splitAccesses, List.mem_append, List.mem_flatMap, List.mem_cons,
    List.not_mem_nil,
    reduceCtorEq, TdAccess.write.injEq, or_false, false_or]
  refine or_congr_right ⟨?_, ?_⟩
  · rintro ⟨⟨p, j⟩, hp, rfl⟩
    rw [List.mk_mem_zipIdx_iff_le_and_getElem?_sub, List.getElem?_eq_some_iff] at hp
    obtain ⟨h1, hi, -⟩ := hp
    rw [List.length_tail] at hi
    exact ⟨h1, by omega⟩
  · rintro ⟨h1, hi⟩
    have hlt : i - 1 < (splitTokens delim v).tail.length := by
      rw [List.length_tail]
      omega
    refine ⟨((splitTokens delim v).tail[i - 1], i), ?_, rfl⟩
    rw [List.mk_mem_zipIdx_iff_le_and_getElem?_sub, List.getElem?_eq_getElem hlt]
    exact ⟨h1, rfl⟩

theorem convert_mem {p : Option CStr} : .convert p ∈ callAccesses delim v →
    p = (splitTokens delim v).head? ∨ p ≠ none := by
  simp only [callAccesses, splitAccesses, List.mem_append, List.mem_flatMap, List.mem_cons,
    List.not_mem_nil,
    reduceCtorEq, TdAccess.convert.injEq, or_false]
  rintro (rfl | ⟨q, -, rfl⟩)
  · exact Or.inl rfl
  · exact Or.inr (by simp)

theorem read_mem_iff {i : ℕ} : .read i ∈ callAccesses delim v ↔ i < 3 := by
  simp only [callAccesses, splitAccesses, List.mem_append, List.mem_flatMap, List.mem_cons,
    List.not_mem_nil,
    reduceCtorEq, TdAccess.read.injEq, or_false, false_or, and_false, exists_false]
  omega

/-- A call stays in `td_tmp` for a value of three groups of characters. -/
theorem inBuffer_iff : InBuffer (callAccesses delim v) ↔ groups delim v = 3 := by
  constructor
  · rintro ⟨hconv, hwrite, hread⟩
    have hne : groups delim v ≠ 0 := by
      rw [← length_splitTokens]
      intro h0
      refine hconv none ?_ rfl
      rw [callAccesses, splitAccesses, List.length_eq_zero_iff.mp h0]
      simp
    have htwo : 2 < groups delim v := by
      have := write_mem_iff.mp (hread 2 (read_mem_iff.mpr (by norm_num)))
      omega
    by_contra hthree
    have := hwrite 3 (write_mem_iff.mpr (by omega))
    omega
  · intro h
    refine ⟨fun p hp => ?_, fun i hi => ?_, fun i hi => ?_⟩
    · rcases convert_mem hp with rfl | hne
      · rw [← length_splitTokens] at h
        rw [Ne, List.head?_eq_none_iff, ← List.length_eq_zero_iff]
        omega
      · exact hne
    · rw [write_mem_iff] at hi
      omega
    · rw [read_mem_iff] at hi
      rw [write_mem_iff]
      omega

/-! ### A request -/

/-- Every date has three groups of characters between '-', and every time between ':'. -/
def DatetimeOk (ps : List UriParam) : Prop :=
  ∀ p ∈ ps, ∀ v, p.2 = some v → (p.1 = lit "DATE" → groups 45 v = 3) ∧
    (p.1 = lit "TIME" → groups 58 v = 3)

/-- The handler stays in its buffer exactly for such dates and times, where it looks at them at all. -/
theorem datetimeCalls_inBuffer_iff (ps : List UriParam) :
    (∀ l ∈ datetimeCalls ps, InBuffer l) ↔ (finds ps "DATE" → DatetimeOk ps) := by
  rw [datetimeCalls]
  split_ifs with hdate
  · rw [List.forall_mem_flatMap, DatetimeOk, forall_prop_of_true hdate]
    refine forall₂_congr fun p _ => ?_
    obtain ⟨name, value⟩ := p
    rcases value with _ | v
    · simp
    · simp only [Option.map_some, Option.toList_some, Option.some.injEq, forall_eq',
        List.forall_mem_append]
      refine and_congr ?_ ?_
      · split_ifs with hname <;> simp [hname, inBuffer_iff]
      · split_ifs with hname <;> simp [hname, inBuffer_iff]
  · simp [hdate]

/-- An empty date. -/
theorem not_datetimeCalls_inBuffer : ¬∀ (ps : List UriParam), ∀ l ∈ datetimeCalls ps, InBuffer l := by
  intro h
  exact (h [(lit "DATE", some [])] (callAccesses 45 []) (by decide)).converts none (by decide) rfl

end Web

end VectorFence
