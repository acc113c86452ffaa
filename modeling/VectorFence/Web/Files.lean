import VectorFence.CString

/-! `fs.c`: the files of the web server. The files themselves are in the flash; an open one has a
    place in `fs_memory`, which has ten.

        fs_open   the first free place      fs_close   the place is free again

    `fs_open` leaves a file at its end: it is not read in blocks, its data is sent from the flash. -/

namespace VectorFence

open CStr

/-- `struct fsdata_file`; the list that starts at `FS_ROOT` is a `List FsdataFile`. -/
structure FsdataFile where
  name : CStr
  data : CStr
  httpHeaderIncluded : Bool

def lwipMaxOpenFiles : ℕ := 10

/-- A place in `fs_memory`. -/
abbrev FsPlace := Fin lwipMaxOpenFiles

/-- `inuse` of every place. -/
abbrev FsMemory := FsPlace → Bool

/-- `struct fs_file` and the place where it is; nothing moves `index` back from the end of the data. -/
structure FsFile where
  place : FsPlace
  data : CStr
  index : ℕ
  httpHeaderIncluded : Bool
  atEnd : data.length ≤ index

/-- `fs_bytes_left`. -/
def fsBytesLeft (file : FsFile) : ℤ := file.data.length - file.index

theorem fsBytesLeft_le (file : FsFile) : fsBytesLeft file ≤ 0 := by
  have := file.atEnd
  simp only [fsBytesLeft]
  omega

/-- `fs_malloc`. -/
def fsMalloc (mem : FsMemory) : Option FsPlace × FsMemory :=
  match (List.finRange lwipMaxOpenFiles).find? fun i => !mem i with
  | some i => (some i, Function.update mem i true)
  | none => (none, mem)

/-- `fs_free`. -/
def fsFree (mem : FsMemory) (i : FsPlace) : FsMemory := Function.update mem i false

/-- `fs_open`. -/
def fsOpen (fs : List FsdataFile) (name : CStr) (mem : FsMemory) : Option FsFile × FsMemory :=
  match fsMalloc mem with
  | (none, mem) => (none, mem)
  | (some i, mem) =>
      match fs.find? fun f => f.name = name with
      | some f => (some ⟨i, f.data, f.data.length, f.httpHeaderIncluded, le_rfl⟩, mem)
      | none => (none, fsFree mem i)

/-- `fs_close`. -/
def fsClose (mem : FsMemory) (file : FsFile) : FsMemory := fsFree mem file.place

/-! ### The places in use -/

variable {mem : FsMemory} {i : FsPlace}

theorem fsMalloc_eq_none : (fsMalloc mem).1 = none ↔ ∀ i, mem i = true := by
  rw [fsMalloc]
  cases h : (List.finRange lwipMaxOpenFiles).find? fun i => !mem i with
  | none =>
    rw [List.find?_eq_none] at h
    simpa using fun i => by simpa using h i (List.mem_finRange i)
  | some i =>
    have hi : mem i = false := by simpa using List.find?_some h
    simp only [reduceCtorEq, false_iff, not_forall]
    exact ⟨i, by simp [hi]⟩

theorem fsMalloc_some {mem' : FsMemory} (h : fsMalloc mem = (some i, mem')) :
    mem i = false ∧ mem' = Function.update mem i true := by
  rw [fsMalloc] at h
  cases hf : (List.finRange lwipMaxOpenFiles).find? fun i => !mem i with
  | none => simp [hf] at h
  | some j =>
    have hj : mem j = false := by simpa using List.find?_some hf
    rw [hf] at h
    cases h
    exact ⟨hj, rfl⟩

theorem fsMalloc_none {mem' : FsMemory} (h : fsMalloc mem = (none, mem')) : mem' = mem := by
  rw [fsMalloc] at h
  cases hf : (List.finRange lwipMaxOpenFiles).find? fun i => !mem i with
  | none =>
    rw [hf] at h
    cases h
    rfl
  | some j =>
    rw [hf] at h
    cases h

/-- A file that cannot be opened takes no place. -/
theorem fsOpen_none {fs : List FsdataFile} {name : CStr} {mem' : FsMemory}
    (h : fsOpen fs name mem = (none, mem')) : mem' = mem := by
  rcases hm : fsMalloc mem with ⟨place, mem₁⟩
  simp only [fsOpen, hm] at h
  cases place with
  | none =>
    cases h
    exact fsMalloc_none hm
  | some i =>
    obtain ⟨hi, rfl⟩ := fsMalloc_some hm
    cases hf : fs.find? fun f => decide (f.name = name) with
    | some f => simp [hf] at h
    | none =>
      rw [hf] at h
      cases h
      rw [fsFree, Function.update_idem, ← hi, Function.update_eq_self]

/-- An open file has a place of its own, and the data of the file with its name. -/
theorem fsOpen_some {fs : List FsdataFile} {name : CStr} {file : FsFile} {mem' : FsMemory}
    (h : fsOpen fs name mem = (some file, mem')) :
    mem file.place = false ∧ mem' = Function.update mem file.place true ∧
      ∃ f ∈ fs, f.name = name ∧ file.data = f.data ∧
      file.httpHeaderIncluded = f.httpHeaderIncluded := by
  rcases hm : fsMalloc mem with ⟨place, mem₁⟩
  simp only [fsOpen, hm] at h
  cases place with
  | none => cases h
  | some i =>
    obtain ⟨hi, rfl⟩ := fsMalloc_some hm
    cases hf : fs.find? fun f => decide (f.name = name) with
    | none => simp [hf] at h
    | some f =>
      rw [hf] at h
      cases h
      exact ⟨hi, rfl, f, List.mem_of_find?_eq_some hf, by simpa using List.find?_some hf, rfl, rfl⟩

/-- Opening fails only for want of a place or of a file with the name. -/
theorem fsOpen_eq_none (fs : List FsdataFile) (name : CStr) :
    (fsOpen fs name mem).1 = none ↔ (∀ i, mem i = true) ∨ ∀ f ∈ fs, f.name ≠ name := by
  rw [← fsMalloc_eq_none]
  rcases hm : fsMalloc mem with ⟨place, mem'⟩
  simp only [fsOpen, hm]
  cases place with
  | none => simp
  | some i =>
    cases hf : fs.find? fun f => decide (f.name = name) with
    | none => simpa using List.find?_eq_none.mp hf
    | some f => simpa using ⟨f, List.mem_of_find?_eq_some hf, by simpa using List.find?_some hf⟩

end VectorFence
