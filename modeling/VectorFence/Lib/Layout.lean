import Mathlib.Tactic

/-! Values of several groups kept in one memory. Each address has at most one owner, so that no two
    groups share an address; a group writes only what it owns, and reads only what it owns:

        memory   ··aaaa·bb···ccc····        write b v   changes  bb   only
                   read a    read c         read b      looks at bb   only

    `Layout.read_run`: after any stores in any order, a group reads as its last store left it. An
    `Init` is what a start does with a group: it stores a default in place of contents that it takes
    for erased, and else uses what it reads. `Layout.boot_boot`: a second start finds everything as
    the first one left it. -/

/-- Groups in a memory with addresses `α` and cells `β`. -/
structure Layout (ι α β : Type*) (Value : ι → Type*) where
  owner : α → Option ι
  write : (i : ι) → Value i → (α → β) → α → β
  read : (i : ι) → (α → β) → Value i
  write_frame : ∀ {i v m x}, owner x ≠ some i → write i v m x = m x
  write_owned : ∀ {i v m m' x}, owner x = some i → write i v m' x = write i v m x
  read_congr : ∀ {i m m'}, (∀ x, owner x = some i → m' x = m x) → read i m' = read i m
  read_write : ∀ i v m, read i (write i v m) = v

namespace Layout

variable {ι α β : Type*} {Value : ι → Type*} (L : Layout ι α β Value)

/-- Stores, each of a value of a group. -/
def run (m : α → β) (stores : List (Σ i, Value i)) : α → β :=
  stores.foldl (fun m s => L.write s.1 s.2 m) m

/-- The value of the last store of a group. -/
def last [DecidableEq ι] (i : ι) : List (Σ i, Value i) → Option (Value i)
  | [] => none
  | s :: stores => (last i stores).or (if h : s.1 = i then some (h ▸ s.2) else none)

theorem read_write_ne {i j : ι} (h : i ≠ j) (v : Value j) (m : α → β) :
    L.read i (L.write j v m) = L.read i m := by
  refine L.read_congr fun x hx => L.write_frame ?_
  intro hj
  rw [hx, Option.some.injEq] at hj
  exact h hj

/-- A group is as its last store left it, whatever was stored before, after and in between. -/
theorem read_run [DecidableEq ι] (i : ι) (stores : List (Σ i, Value i)) (m : α → β) :
    L.read i (L.run m stores) = (last i stores).getD (L.read i m) := by
  induction stores generalizing m with
  | nil => rfl
  | cons s stores ih =>
    obtain ⟨j, v⟩ := s
    rw [run, List.foldl_cons, ← run, ih, last]
    cases hlast : last i stores with
    | some w => rfl
    | none =>
      rw [Option.none_or, Option.getD_none]
      by_cases h : j = i
      · subst h
        rw [dif_pos rfl, L.read_write, Option.getD_some]
      · rw [dif_neg h, L.read_write_ne (Ne.symm h), Option.getD_none]

/-- An address whose owner stores nothing stays as it is. -/
theorem run_frame {x : α} {stores : List (Σ i, Value i)} (h : ∀ s ∈ stores, L.owner x ≠ some s.1)
    (m : α → β) :
    L.run m stores x = m x := by
  induction stores generalizing m with
  | nil => rfl
  | cons s stores ih =>
    rw [List.forall_mem_cons] at h
    rw [run, List.foldl_cons, ← run, ih h.2, L.write_frame h.1]

/-- A store replaces what the group was stored with before. -/
theorem write_write (i : ι) (v w : Value i) (m : α → β) :
    L.write i v (L.write i w m) = L.write i v m := by
  funext x
  by_cases hx : L.owner x = some i
  · exact L.write_owned hx
  · rw [L.write_frame hx, L.write_frame hx, L.write_frame hx]

/-! ### Initialisation -/

/-- Two memories are the same on a group. -/
def Agree (i : ι) (m m' : α → β) : Prop := ∀ x, L.owner x = some i → m' x = m x

/-- What a start does with a group. It takes contents that are `erased` for missing and stores `fix`
    of what it reads; else it uses `keep` of what it reads. -/
structure Init (i : ι) where
  erased : (α → β) → Bool
  fix : Value i → Value i
  keep : Value i → Value i
  erased_congr : ∀ {m m'}, L.Agree i m m' → erased m' = erased m
  not_erased : ∀ v m, erased (L.write i (fix v) m) = false
  keep_fix : ∀ v, keep (fix v) = fix v

namespace Init

variable {L} {i : ι} (init : L.Init i) {m m' : α → β}

/-- The memory afterwards, and the value in use. -/
def run (m : α → β) : (α → β) × Value i :=
  if init.erased m then (L.write i (init.fix (L.read i m)) m, init.fix (L.read i m))
  else (m, init.keep (L.read i m))

theorem run_frame {x : α} (hx : L.owner x ≠ some i) : (init.run m).1 x = m x := by
  rw [run]
  split_ifs
  · exact L.write_frame hx
  · rfl

/-- Only the group itself matters. -/
theorem run_congr (h : L.Agree i m m') :
    (init.run m').2 = (init.run m).2 ∧ L.Agree i (init.run m).1 (init.run m').1 := by
  rw [run, run, init.erased_congr h, L.read_congr h]
  split_ifs
  · exact ⟨rfl, fun x hx => L.write_owned hx⟩
  · exact ⟨rfl, h⟩

/-- Doing it again stores nothing and finds the same value. -/
theorem run_again (m : α → β) : init.run (init.run m).1 = init.run m := by
  by_cases h : init.erased m
  · have hrun : init.run m = (L.write i (init.fix (L.read i m)) m, init.fix (L.read i m)) := if_pos h
    rw [hrun, run, if_neg (by simp [init.not_erased]), L.read_write, init.keep_fix]
  · have hrun : init.run m = (m, init.keep (L.read i m)) := if_neg h
    rw [hrun, hrun]

theorem not_erased_run (m : α → β) : init.erased (init.run m).1 = false := by
  rw [run]
  split_ifs with h
  · exact init.not_erased _ m
  · exact eq_false_of_ne_true h

end Init

variable {L} (inits : (i : ι) → L.Init i)

/-- A start: the groups are initialised one after the other. -/
def boot (is : List ι) (m : α → β) : α → β := is.foldl (fun m i => ((inits i).run m).1) m

theorem boot_other {x : α} {is : List ι} (h : ∀ i ∈ is, L.owner x ≠ some i) (m : α → β) :
    boot inits is m x = m x := by
  induction is generalizing m with
  | nil => rfl
  | cons i is ih =>
    rw [List.forall_mem_cons] at h
    rw [boot, List.foldl_cons, ← boot, ih h.2, (inits i).run_frame h.1]

/-- A group that is not initialised stays as it is. -/
theorem agree_boot {i : ι} {is : List ι} (hi : i ∉ is) (m : α → β) : L.Agree i m (boot inits is m) := by
  intro x hx
  refine boot_other inits (fun j hj hji => hi ?_) m
  rw [hx, Option.some.injEq] at hji
  exact hji ▸ hj

/-- A group that is initialised does not depend on the others. -/
theorem boot_agree {i : ι} {is : List ι} (hi : i ∈ is) (hnodup : is.Nodup) (m : α → β) :
    L.Agree i ((inits i).run m).1 (boot inits is m) := by
  induction is generalizing m with
  | nil => simp at hi
  | cons j is ih =>
    rw [List.nodup_cons] at hnodup
    rcases List.mem_cons.mp hi with rfl | hi
    · exact agree_boot inits hnodup.1 _
    · have hne : i ≠ j := fun h => hnodup.1 (h ▸ hi)
      have hj : L.Agree i m ((inits j).run m).1 := by
        intro x hx
        refine (inits j).run_frame fun hxj => hne ?_
        rw [hx, Option.some.injEq] at hxj
        exact hxj
      intro x hx
      exact (ih hi hnodup.2 _ x hx).trans (((inits i).run_congr hj).2 x hx)

/-- A start finds the value of a group as it would alone, also a start after another one. -/
theorem value_boot (i : ι) {is : List ι} (hnodup : is.Nodup) (m : α → β) :
    ((inits i).run (boot inits is m)).2 = ((inits i).run m).2 := by
  by_cases hi : i ∈ is
  · rw [((inits i).run_congr (boot_agree inits hi hnodup m)).1, (inits i).run_again]
  · exact ((inits i).run_congr (agree_boot inits hi m)).1

/-- A second start takes nothing for erased. -/
theorem not_erased_boot {i : ι} {is : List ι} (hi : i ∈ is) (hnodup : is.Nodup) (m : α → β) :
    (inits i).erased (boot inits is m) = false := by
  rw [(inits i).erased_congr (boot_agree inits hi hnodup m), (inits i).not_erased_run]

/-- A second start changes nothing. -/
theorem boot_boot {is : List ι} (hnodup : is.Nodup) (m : α → β) :
    boot inits is (boot inits is m) = boot inits is m := by
  funext x
  by_cases h : ∃ i ∈ is, L.owner x = some i
  · obtain ⟨i, hi, hx⟩ := h
    have hagree := boot_agree inits hi hnodup m
    rw [boot_agree inits hi hnodup _ x hx, ((inits i).run_congr hagree).2 x hx, (inits i).run_again,
      hagree x hx]
  · exact boot_other inits (fun i hi hx => h ⟨i, hi, hx⟩) _

end Layout
