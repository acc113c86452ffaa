import VectorFence.Ethernet.Receive
import VectorFence.Ethernet.Transmit
import VectorFence.Lib.Blocks
import VectorFence.Lib.Run

/-! The memory manager of `malloc.c`. A pool is divided into 32-byte blocks; `memmap` has a cell for
    each of them, with the number of blocks of the piece it belongs to, or zero. `mymalloc` searches
    from the top of the pool.

        mymalloc(70)   3 blocks      myfree(p)   as many blocks from that of p on as its cell says

    Both run in a critical section: what the tasks do comes in some order, one call at a time. -/

namespace VectorFence

def memblksize : UInt32 := 32

/-- `membase`, `memtblsize` of a pool; it does not begin at NULL, and it ends within the address
    space. -/
structure MemPool where
  membase : UInt32
  memtblsize : ℕ
  base_pos : 0 < membase.toNat
  tbl_lt : memtblsize < 2 ^ 16
  fits : membase.toNat + 32 * memtblsize ≤ 2 ^ 32

/-- `mem3base`, in the CCM. -/
def sramCcm : MemPool := ⟨0x10000000, 1920, by decide, by decide, by decide⟩

/-- `memmap` and `memrdy`. -/
structure Heap where
  memmap : ℕ → UInt16
  memrdy : Bool

namespace Heap

variable (p : MemPool)

/-- `memsize`. -/
def memsize : UInt32 := UInt32.ofNat (p.memtblsize * 32)

/-- `my_mem_init`. -/
def myMemInit (s : Heap) : Heap := ⟨fun i => if i < p.memtblsize then 0 else s.memmap i, true⟩

/-- A pool is initialised when it is first used. -/
def usable (s : Heap) : Heap := if s.memrdy then s else s.myMemInit p

def table (s : Heap) (i : ℕ) : ℕ := (s.memmap i).toNat

/-- `my_mem_perused`. -/
def myMemPerused (s : Heap) : ℕ :=
  ((Finset.range p.memtblsize).filter fun i => s.memmap i ≠ 0).card * 100 / p.memtblsize

def mark (s : Heap) (o k : ℕ) (v : UInt16) : Heap :=
  { s with memmap := fun i => if o ≤ i ∧ i < o + k then v else s.memmap i }

/-- The blocks for `size` bytes. -/
def nmemb (size : UInt32) : UInt32 := size / memblksize + if size % memblksize = 0 then 0 else 1

/-- `my_mem_malloc`: the offset, 0xFFFFFFFF for an error. -/
def myMemMalloc (size : UInt32) (s : Heap) : UInt32 × Heap :=
  let s := s.usable p
  if size = 0 then (0xFFFFFFFF, s)
  else
    match Blocks.scan s.table (nmemb size).toNat p.memtblsize 0 with
    | some o => (UInt32.ofNat o * memblksize, s.mark o (nmemb size).toNat (nmemb size).toUInt16)
    | none => (0xFFFFFFFF, s)

/-- `my_mem_free`. -/
def myMemFree (offset : UInt32) (s : Heap) : UInt8 × Heap :=
  if !s.memrdy then (1, s.myMemInit p)
  else if offset < memsize p then
    let index := (offset / memblksize).toNat
    (0, s.mark index (s.memmap index).toNat 0)
  else (2, s)

/-- `mymalloc`; 0 for NULL. -/
def mymalloc (size : UInt32) (s : Heap) : UInt32 × Heap :=
  let r := s.myMemMalloc p size
  (if r.1 = 0xFFFFFFFF then 0 else p.membase + r.1, r.2)

/-- `myfree`. -/
def myfree (ptr : UInt32) (s : Heap) : Heap :=
  if ptr = 0 then s else (s.myMemFree p (ptr - p.membase)).2

variable {p}

/-! ### One call -/

theorem toNat_nmemb (size : UInt32) : (nmemb size).toNat = (size.toNat + 31) / 32 := by
  have hlt := size.toNat_lt
  rw [nmemb, UInt32.toNat_add, UInt32.toNat_div]
  have hblk : memblksize.toNat = 32 := rfl
  split_ifs with hmod
  · have : size.toNat % 32 = 0 := by
      have := congrArg UInt32.toNat hmod
      rwa [UInt32.toNat_mod, hblk] at this
    rw [hblk, UInt32.toNat_zero]
    omega
  · have : size.toNat % 32 ≠ 0 := by
      intro hzero
      refine hmod (UInt32.toNat_inj.mp ?_)
      rw [UInt32.toNat_mod, hblk, hzero]
      rfl
    rw [hblk, UInt32.toNat_one]
    omega

theorem table_mark (s : Heap) (o k : ℕ) (v : UInt16) :
    (s.mark o k v).table = Blocks.fill s.table o k v.toNat := by
  funext i
  simp only [table, mark, Blocks.fill]
  split_ifs <;> rfl

theorem table_usable (s : Heap) (hs : s.memrdy = false) (i : ℕ) (hi : i < p.memtblsize) :
    (s.usable p).table i = 0 := by
  simp [usable, hs, myMemInit, table, hi]

theorem memrdy_usable (s : Heap) : (s.usable p).memrdy = true := by
  rw [usable]
  split_ifs with hs
  · exact hs
  · rfl

theorem usable_of_memrdy {s : Heap} (hs : s.memrdy = true) : s.usable p = s := if_pos hs

/-- What `mymalloc` does when it has found a gap. -/
structure Given (p : MemPool) (size : UInt32) (s : Heap) (r : UInt32 × Heap) (o : ℕ) : Prop where
  pos : 0 < (size.toNat + 31) / 32
  fits : o + (size.toNat + 31) / 32 ≤ p.memtblsize
  free : ∀ i, o ≤ i → i < o + (size.toNat + 31) / 32 → (s.usable p).table i = 0
  ptr : r.1.toNat = p.membase.toNat + 32 * o
  rdy : r.2.memrdy = true
  table : r.2.table = Blocks.fill (s.usable p).table o ((size.toNat + 31) / 32) ((size.toNat + 31) / 32)

/-- It finds a gap if there is one. -/
theorem mymalloc_cases (size : UInt32) (s : Heap) :
    (∃ o, Given p size s (s.mymalloc p size) o) ∨
      (s.mymalloc p size).1 = 0 ∧ (s.mymalloc p size).2 = s.usable p ∧
        (size = 0 ∨ ∀ o, o + (size.toNat + 31) / 32 ≤ p.memtblsize →
          ∃ i, o ≤ i ∧ i < o + (size.toNat + 31) / 32 ∧ (s.usable p).table i ≠ 0) := by
  by_cases hsize : size = 0
  · right
    have herr : s.myMemMalloc p size = (0xFFFFFFFF, s.usable p) := by rw [myMemMalloc, if_pos hsize]
    rw [mymalloc, herr]
    exact ⟨rfl, rfl, .inl hsize⟩
  · have hpos : 0 < size.toNat := Nat.pos_of_ne_zero fun h => hsize (UInt32.toNat_inj.mp h)
    simp only [mymalloc, myMemMalloc, if_neg hsize]
    cases hscan : Blocks.scan (s.usable p).table (nmemb size).toNat p.memtblsize 0 with
    | none =>
      right
      refine ⟨rfl, rfl, .inr fun o ho => ?_⟩
      rw [← toNat_nmemb] at ho ⊢
      have hk : 0 < (nmemb size).toNat := by rw [toNat_nmemb]; omega
      exact Blocks.scan_none hk hscan (by omega) ho
    | some o =>
      left
      obtain ⟨hlt, hle, hfree⟩ := Blocks.scan_some (fun j hj hj' => by omega) hscan
      have hk := toNat_nmemb size
      have htbl := p.tbl_lt
      have hfits := p.fits
      have hoff : (UInt32.ofNat o * memblksize).toNat = 32 * o := by
        have hblk : memblksize.toNat = 32 := rfl
        rw [UInt32.toNat_mul, UInt32.toNat_ofNat', hblk, Nat.mod_eq_of_lt (show o < 2 ^ 32 by omega),
          Nat.mul_comm]
        exact Nat.mod_eq_of_lt (by omega)
      have hne : UInt32.ofNat o * memblksize ≠ 0xFFFFFFFF := by
        intro heq
        have := congrArg UInt32.toNat heq
        rw [hoff, show (0xFFFFFFFF : UInt32).toNat = 4294967295 from rfl] at this
        omega
      have hv : (nmemb size).toUInt16.toNat = (nmemb size).toNat := by
        rw [UInt32.toNat_toUInt16]
        exact Nat.mod_eq_of_lt (by omega)
      refine ⟨o, by omega, by omega, fun i hi hi' => hfree i hi (by omega), ?_, memrdy_usable s, ?_⟩
      · simp only [if_neg hne]
        rw [UInt32.toNat_add, hoff]
        exact Nat.mod_eq_of_lt (by omega)
      · simp only [table_mark, hv, hk]

/-- `myfree` of a piece clears its blocks. -/
theorem table_myfree {ptr : UInt32} {s : Heap} {o : ℕ} (hs : s.memrdy = true)
    (hptr : ptr.toNat = p.membase.toNat + 32 * o)
    (ho : o < p.memtblsize) :
    (s.myfree p ptr).memrdy = true ∧ (s.myfree p ptr).table = Blocks.fill s.table o (s.table o) 0 := by
  have hbase := p.base_pos
  have hfits := p.fits
  have htbl := p.tbl_lt
  have hne : ptr ≠ 0 := by
    rintro rfl
    rw [UInt32.toNat_zero] at hptr
    omega
  have hoff : (ptr - p.membase).toNat = 32 * o := by
    rw [UInt32.toNat_sub_of_le _ _ (UInt32.le_iff_toNat_le.mpr (by omega))]
    omega
  have hlt : ptr - p.membase < memsize p := by
    rw [UInt32.lt_iff_toNat_lt, hoff, memsize, UInt32.toNat_ofNat', Nat.mod_eq_of_lt (by omega)]
    omega
  have hindex : ((ptr - p.membase) / memblksize).toNat = o := by
    rw [UInt32.toNat_div, hoff]
    exact Nat.mul_div_cancel_left o (by decide)
  rw [myfree, if_neg hne, myMemFree, if_neg (by simp [hs]), if_pos hlt, hindex]
  exact ⟨hs, table_mark ..⟩

end Heap

/-! ### The pieces that are in use -/

/-- The blocks of a piece, given by its pointer and its size. -/
def MemPool.block (p : MemPool) (a : UInt32 × UInt32) : ℕ × ℕ :=
  ((a.1.toNat - p.membase.toNat) / 32, (a.2.toNat + 31) / 32)

/-- A pool, and the pieces of it that have been given and not been freed. -/
structure Client where
  heap : Heap
  held : Finset (UInt32 × UInt32)

inductive HeapCall where
  | malloc (size : UInt32)
  | free (ptr : UInt32)

namespace Client

variable (p : MemPool)

def step (s : Client) : HeapCall → Client
  | .malloc size =>
      let r := s.heap.mymalloc p size
      ⟨r.2, if r.1 = 0 then s.held else insert (r.1, size) s.held⟩
  | .free ptr => ⟨s.heap.myfree p ptr, s.held.filter fun a => a.1 ≠ ptr⟩

/-- What is freed has been given and not been freed since, or is NULL. -/
def Owns (s : Client) : HeapCall → Prop
  | .malloc _ => True
  | .free ptr => ptr = 0 ∨ ∃ a ∈ s.held, a.1 = ptr

def Disciplined : List HeapCall → Client → Prop
  | [], _ => True
  | c :: cs, s => s.Owns c ∧ Disciplined cs (s.step p c)

/-- The map of the pool marks the blocks of the pieces. -/
structure Ok (s : Client) : Prop where
  table : Blocks.Table p.memtblsize (s.heap.usable p).table (s.held.image p.block)
  rdy : s.heap.memrdy = false → s.held = ∅
  ptr : ∀ a ∈ s.held, a.1.toNat = p.membase.toNat + 32 * (p.block a).1
  inj : ∀ a ∈ s.held, ∀ a' ∈ s.held, a.1 = a'.1 → a = a'

variable {p} {s : Client}

theorem Ok.block_inj (h : Ok p s) {a a' : UInt32 × UInt32} (ha : a ∈ s.held) (ha' : a' ∈ s.held)
    (heq : (p.block a).1 = (p.block a').1) : a = a' := by
  refine h.inj a ha a' ha' (UInt32.toNat_inj.mp ?_)
  rw [h.ptr a ha, h.ptr a' ha', heq]

/-- A piece that is held covers blocks that are in use. -/
theorem Ok.block_used (h : Ok p s) {a : UInt32 × UInt32} (ha : a ∈ s.held) :
    (p.block a).1 < p.memtblsize ∧ (s.heap.usable p).table (p.block a).1 = (p.block a).2 ∧ 0 <
    (p.block a).2 := by
  have hmem := Finset.mem_image_of_mem p.block ha
  have hpos := h.table.pos _ hmem
  have hfits := h.table.fits _ hmem
  exact ⟨by omega, h.table.marked _ hmem _ ⟨le_rfl, by omega⟩, hpos⟩

/-- What is given is not NULL, and nobody has it. -/
theorem Ok.given_new (h : Ok p s) {size : UInt32} {o : ℕ}
    (hgiven : Heap.Given p size s.heap (s.heap.mymalloc p size) o) :
    (s.heap.mymalloc p size).1 ≠ 0 ∧ ∀ a ∈ s.held, (s.heap.mymalloc p size).1 ≠ a.1 := by
  have hbase := p.base_pos
  have hptr := hgiven.ptr
  constructor
  · intro hzero
    rw [hzero, UInt32.toNat_zero] at hptr
    omega
  · intro a ha heq
    obtain ⟨-, hused, hpos⟩ := h.block_used ha
    have hself : (p.block a).1 = o := by
      rw [MemPool.block, ← heq, hptr, Nat.add_sub_cancel_left]
      exact Nat.mul_div_cancel_left o (by decide)
    rw [hself, hgiven.free o le_rfl (by have := hgiven.pos; omega)] at hused
    omega

theorem ok_malloc (h : Ok p s) (size : UInt32) : Ok p (s.step p (.malloc size)) := by
  rcases Heap.mymalloc_cases (p := p) size s.heap with ⟨o, hgiven⟩ | ⟨hnull, hheap, -⟩
  · have hptr := hgiven.ptr
    obtain ⟨hne, hnew⟩ := h.given_new hgiven
    have hblock : p.block ((s.heap.mymalloc p size).1, size) = (o, (size.toNat + 31) / 32) := by
      rw [MemPool.block, hptr, Nat.add_sub_cancel_left, Nat.mul_div_cancel_left o (by decide)]
    simp only [step, if_neg hne]
    refine ⟨?_, fun hfalse => Bool.noConfusion (hgiven.rdy.symm.trans hfalse), ?_, ?_⟩
    · rw [Heap.usable_of_memrdy hgiven.rdy, hgiven.table, Finset.image_insert, hblock]
      exact h.table.take hgiven.pos hgiven.fits hgiven.free
    · intro a ha
      rcases Finset.mem_insert.mp ha with rfl | ha
      · rw [hblock]
        exact hptr
      · exact h.ptr a ha
    · intro a ha a' ha' heq
      rcases Finset.mem_insert.mp ha with rfl | ha <;> rcases Finset.mem_insert.mp ha' with rfl | ha'
      · rfl
      · exact absurd heq (hnew a' ha')
      · exact absurd heq.symm (hnew a ha)
      · exact h.inj a ha a' ha' heq
  · simp only [step, hnull, if_true, hheap]
    have hrdy := Heap.memrdy_usable (p := p) s.heap
    refine ⟨?_, fun hfalse => Bool.noConfusion (hrdy.symm.trans hfalse), h.ptr, h.inj⟩
    rw [Heap.usable_of_memrdy hrdy]
    exact h.table

theorem ok_free (h : Ok p s) {ptr : UInt32} (howns : s.Owns (.free ptr)) :
    Ok p (s.step p (.free ptr)) := by
  by_cases hzero : ptr = 0
  · have hall : s.held.filter (fun a => a.1 ≠ ptr) = s.held := by
      refine Finset.filter_true_of_mem fun a ha heq => ?_
      have hptr := h.ptr a ha
      have hbase := p.base_pos
      rw [heq, hzero, UInt32.toNat_zero] at hptr
      omega
    simp only [step, hall, Heap.myfree, if_pos hzero]
    exact h
  · obtain ⟨a, ha, rfl⟩ := howns.resolve_left hzero
    have hrdy : s.heap.memrdy = true := by
      by_contra hnot
      rw [h.rdy (by simpa using hnot)] at ha
      simp at ha
    obtain ⟨hlt, hused, -⟩ := h.block_used ha
    obtain ⟨hrdy', htable⟩ := Heap.table_myfree hrdy (h.ptr a ha) hlt
    have hheld : s.held.filter (fun b => b.1 ≠ a.1) = s.held.erase a := by
      ext b
      rw [Finset.mem_filter, Finset.mem_erase]
      exact ⟨fun ⟨hb, hne⟩ => ⟨fun heq => hne (by rw [heq]), hb⟩,
        fun ⟨hne, hb⟩ => ⟨hb, fun heq => hne (h.inj b hb a ha heq)⟩⟩
    have himage : (s.held.erase a).image p.block = (s.held.image p.block).erase (p.block a) := by
      ext x
      simp only [Finset.mem_image, Finset.mem_erase]
      constructor
      · rintro ⟨b, ⟨hne, hb⟩, rfl⟩
        exact ⟨fun heq => hne (h.block_inj hb ha (congrArg Prod.fst heq)), b, hb, rfl⟩
      · rintro ⟨hne, b, hb, rfl⟩
        exact ⟨b, ⟨fun heq => hne (by rw [heq]), hb⟩, rfl⟩
    simp only [step, hheld]
    refine ⟨?_, fun hfalse => Bool.noConfusion (hrdy'.symm.trans hfalse),
      fun b hb => h.ptr b (Finset.mem_of_mem_erase hb),
      fun b hb b' hb' => h.inj b (Finset.mem_of_mem_erase hb) b' (Finset.mem_of_mem_erase hb')⟩
    rw [Heap.usable_of_memrdy hrdy] at hused
    rw [Heap.usable_of_memrdy hrdy', htable, hused, himage]
    have := h.table.release (Finset.mem_image_of_mem p.block ha)
    rwa [Heap.usable_of_memrdy hrdy] at this

/-! ### Runs -/

/-- Before the first call the map may hold anything. -/
def start (memmap : ℕ → UInt16) : Client := ⟨⟨memmap, false⟩, ∅⟩

theorem ok_start (memmap : ℕ → UInt16) : Ok p (start memmap) := by
  refine ⟨?_, fun _ => rfl, by simp [start], by simp [start]⟩
  exact Blocks.table_empty.congr fun i hi => Heap.table_usable _ rfl i hi

theorem ok_run : ∀ {cs : List HeapCall} {s : Client}, Ok p s → Disciplined p cs s →
    Ok p (cs.foldl (step p) s)
  | [], _, h, _ => h
  | .malloc size :: _, _, h, ⟨_, hcs⟩ => by
      rw [List.foldl_cons]
      exact ok_run (ok_malloc h size) hcs
  | .free _ :: _, _, h, ⟨howns, hcs⟩ => by
      rw [List.foldl_cons]
      exact ok_run (ok_free h howns) hcs

/-- The bytes of a piece are in its blocks. -/
theorem Ok.bytes (h : Ok p s) {a : UInt32 × UInt32} (ha : a ∈ s.held) :
    a.1.toNat + a.2.toNat ≤ p.membase.toNat + 32 * ((p.block a).1 + (p.block a).2) := by
  have hptr := h.ptr a ha
  have hsize : (p.block a).2 = (a.2.toNat + 31) / 32 := rfl
  omega

theorem Ok.sum_blocks (h : Ok p s) :
    ∑ b ∈ s.held.image p.block, b.2 = ∑ a ∈ s.held, (a.2.toNat + 31) / 32 :=
  Finset.sum_image fun _ ha _ hb heq => h.block_inj ha hb (congrArg Prod.fst heq)

/-- In every order of calls: the pieces are in the pool and apart, the usage is that of the pieces,
    and `mymalloc` fails only if the pieces leave no gap. -/
theorem held_run (memmap : ℕ → UInt16) {cs : List HeapCall} (hcs : Disciplined p cs (start memmap)) :
    let s := cs.foldl (step p) (start memmap)
    (∀ a ∈ s.held, p.membase ≤ a.1 ∧ a.1.toNat + a.2.toNat ≤ p.membase.toNat + 32 * p.memtblsize) ∧
      (∀ a ∈ s.held, ∀ a' ∈ s.held, a ≠ a' → a.1.toNat + a.2.toNat ≤ a'.1.toNat ∨
      a'.1.toNat + a'.2.toNat ≤ a.1.toNat) ∧
      (s.heap.usable p).myMemPerused p = (∑ a ∈ s.held, (a.2.toNat + 31) / 32) * 100 / p.memtblsize ∧
      ∀ size, (s.heap.mymalloc p size).1 = 0 ↔ size = 0 ∨ ∀ o, o +
      (size.toNat + 31) / 32 ≤ p.memtblsize →
        ∃ a ∈ s.held, (p.block a).1 < o + (size.toNat + 31) / 32 ∧ o < (p.block a).1 +
        (p.block a).2 := by
  have h := ok_run (ok_start memmap) hcs
  simp only
  generalize cs.foldl (step p) (start memmap) = s at h ⊢
  refine ⟨fun a ha => ⟨?_, ?_⟩, fun a ha a' ha' hne => ?_, ?_,
    fun size => ⟨fun hnull => ?_, fun hgap => ?_⟩⟩
  · rw [UInt32.le_iff_toNat_le, h.ptr a ha]
    exact Nat.le_add_right ..
  · have hbytes := h.bytes ha
    have hfits := h.table.fits _ (Finset.mem_image_of_mem p.block ha)
    omega
  · have hblocks : p.block a ≠ p.block a' := fun heq => hne (h.block_inj ha ha' (congrArg Prod.fst heq))
    have hbytes := h.bytes ha
    have hbytes' := h.bytes ha'
    have hptr := h.ptr a ha
    have hptr' := h.ptr a' ha'
    rcases h.table.apart _ (Finset.mem_image_of_mem p.block ha) _
      (Finset.mem_image_of_mem p.block ha') hblocks with hle | hle
    · left
      omega
    · right
      omega
  · have hcells : (Finset.range p.memtblsize).filter (fun i => (s.heap.usable p).memmap i ≠ 0) =
        (Finset.range p.memtblsize).filter (fun i => (s.heap.usable p).table i ≠ 0) := by
      refine Finset.filter_congr fun i _ => ?_
      rw [Heap.table, ne_eq, ne_eq, ← UInt16.toNat_inj]
      rfl
    rw [Heap.myMemPerused, hcells, h.table.card_used, h.sum_blocks]
  · rcases Heap.mymalloc_cases (p := p) size s.heap with ⟨o, hgiven⟩ | ⟨-, -, hfail⟩
    · have hptr := hgiven.ptr
      have hbase := p.base_pos
      rw [hnull, UInt32.toNat_zero] at hptr
      omega
    · refine hfail.imp_right fun hgap o ho => ?_
      obtain ⟨i, hoi, hio, hne⟩ := hgap o ho
      obtain ⟨b, hb, hcover⟩ := h.table.clear i (by omega) hne
      obtain ⟨a, ha, rfl⟩ := Finset.mem_image.mp hb
      exact ⟨a, ha, hcover.1.trans_lt hio, hoi.trans_lt hcover.2⟩
  · rcases Heap.mymalloc_cases (p := p) size s.heap with ⟨o, hgiven⟩ | ⟨hnull, -⟩
    · exfalso
      have hpos := hgiven.pos
      rcases hgap with rfl | hgap
      · rw [UInt32.toNat_zero] at hpos
        omega
      · obtain ⟨a, ha, hlt, hgt⟩ := hgap o hgiven.fits
        have hmem := Finset.mem_image_of_mem p.block ha
        have hpos' := h.table.pos _ hmem
        have hcover : Blocks.Covers (p.block a) (max o (p.block a).1) := ⟨le_max_right .., by omega⟩
        have hmarked := h.table.marked _ hmem _ hcover
        rw [hgiven.free _ (le_max_left ..) (by omega)] at hmarked
        omega
    · exact hnull

theorem held_run_sramCcm :
    let s := [HeapCall.malloc 70, .malloc 5, .free 0x1000EFA0].foldl (step sramCcm)
      (start fun i => UInt16.ofNat i)
    ∀ a ∈ s.held, sramCcm.membase ≤ a.1 ∧
    a.1.toNat + a.2.toNat ≤ sramCcm.membase.toNat + 32 * sramCcm.memtblsize := by
  have hcs : Disciplined sramCcm [.malloc 70, .malloc 5, .free 0x1000EFA0] (start fun i =>
    UInt16.ofNat i) :=
    ⟨trivial, trivial, .inr ⟨(0x1000EFA0, 70), by decide +kernel, rfl⟩, trivial⟩
  exact (held_run (fun i => UInt16.ofNat i) hcs).1

end Client

/-! ### Several pieces, or none -/

namespace Heap

variable (p : MemPool)

def mallocs : List UInt32 → Heap → List UInt32 × Heap
  | [], s => ([], s)
  | size :: sizes, s =>
      let r := s.mymalloc p size
      let rest := mallocs sizes r.2
      (r.1 :: rest.1, rest.2)

def frees (ptrs : List UInt32) (s : Heap) : Heap := ptrs.foldl (fun s ptr => s.myfree p ptr) s

/-- Pieces of these sizes; if one of them cannot be had, all are freed. 0 if all went well. -/
def mallocAll (sizes : List UInt32) (s : Heap) : UInt8 × List UInt32 × Heap :=
  let r := s.mallocs p sizes
  if 0 ∈ r.1 then (1, r.1, r.2.frees p r.1) else (0, r)

/-- The descriptors, 32 bytes each, and the buffers. -/
def ethSizes : List UInt32 :=
  [ethRxBufNb * 32, ethTxBufNb * 32, ethRxBufSize * ethRxBufNb, ethTxBufSize * ethTxBufNb].map
    UInt32.ofNat

example : ethSizes = [160, 160, 7620, 7620] := by decide

/-- `ETH_Mem_Malloc`. -/
def ethMemMalloc : Heap → UInt8 × List UInt32 × Heap := mallocAll p ethSizes

/-- `memp_memory`, `ram_heap`, and the stacks of the two tasks. -/
def lwipCommSizes (mempsize : UInt32) : List UInt32 := [mempsize, 16000 + 2 * 12 + 4, 1000 * 4, 128 * 4]

/-- `lwip_comm_mem_malloc`. -/
def lwipCommMemMalloc (mempsize : UInt32) : Heap → UInt8 × List UInt32 × Heap :=
  mallocAll p (lwipCommSizes mempsize)

variable {p}

/-- The pieces that were given, with their sizes. -/
def given (got : List (UInt32 × UInt32)) : List (UInt32 × UInt32) := got.filter fun a => a.1 ≠ 0

theorem length_mallocs (sizes : List UInt32) (s : Heap) :
    (s.mallocs p sizes).1.length = sizes.length := by
  induction sizes generalizing s with
  | nil => rfl
  | cons size sizes ih => simp [mallocs, ih]

/-- The pieces given are new, and apart from each other. -/
theorem mallocs_ok (sizes : List UInt32) {s : Heap} {held : Finset (UInt32 × UInt32)}
    (h : Client.Ok p ⟨s, held⟩) :
    let got := given ((s.mallocs p sizes).1.zip sizes)
    Client.Ok p ⟨(s.mallocs p sizes).2, held ∪ got.toFinset⟩ ∧ (∀ a ∈ got, a ∉ held) ∧ got.Nodup := by
  induction sizes generalizing s held with
  | nil => simpa [mallocs, given] using h
  | cons size sizes ih =>
    have hstep := Client.ok_malloc h size
    rcases mymalloc_cases (p := p) size s with ⟨o, hgiven⟩ | ⟨hnull, -⟩
    · obtain ⟨hne, hnew⟩ := h.given_new hgiven
      simp only at hne hnew
      simp only [Client.step, if_neg hne] at hstep
      obtain ⟨hok, hfresh, hnodup⟩ := ih hstep
      have hgot : given ((s.mallocs p (size :: sizes)).1.zip (size :: sizes)) =
        ((s.mymalloc p size).1, size) ::
          given (((s.mymalloc p size).2.mallocs p sizes).1.zip sizes) := by
        simp [given, mallocs, hne]
      rw [hgot]
      refine ⟨?_, ?_, ?_⟩
      · rw [List.toFinset_cons, Finset.union_insert, ← Finset.insert_union]
        exact hok
      · intro a ha hheld
        rcases List.mem_cons.mp ha with rfl | ha
        · exact hnew _ hheld rfl
        · exact hfresh a ha (Finset.mem_insert_of_mem hheld)
      · exact List.nodup_cons.mpr ⟨fun ha => hfresh _ ha (Finset.mem_insert_self ..), hnodup⟩
    · simp only [Client.step, hnull, if_true] at hstep
      have hgot : given ((s.mallocs p (size :: sizes)).1.zip (size :: sizes)) =
          given (((s.mymalloc p size).2.mallocs p sizes).1.zip sizes) := by
        simp [given, mallocs, hnull]
      rw [hgot]
      exact ih hstep

/-- Freed again, they leave the others. -/
theorem frees_ok {got : List (UInt32 × UInt32)} {s : Heap} {held : Finset (UInt32 × UInt32)}
    (h : Client.Ok p ⟨s, held ∪ (given got).toFinset⟩) (hfresh : ∀ a ∈ given got, a ∉ held)
    (hnodup : (given got).Nodup) :
    Client.Ok p ⟨s.frees p (got.map Prod.fst), held⟩ := by
  induction got generalizing s with
  | nil => simpa [given, frees] using h
  | cons a got ih =>
    rw [List.map_cons, frees, List.foldl_cons]
    by_cases hzero : a.1 = 0
    · have hgot : given (a :: got) = given got := by simp [given, hzero]
      rw [hgot] at h hfresh hnodup
      rw [hzero, myfree, if_pos rfl]
      exact ih h hfresh hnodup
    · have hgot : given (a :: got) = a :: given got := by simp [given, hzero]
      rw [hgot] at h hfresh hnodup
      have hmem : a ∈ held ∪ (a :: given got).toFinset := by simp
      have hstep := Client.ok_free h (.inr ⟨a, hmem, rfl⟩)
      obtain ⟨hnot, hnodup⟩ := List.nodup_cons.mp hnodup
      have hrest : (held ∪ (a :: given got).toFinset).filter (fun b => b.1 ≠ a.1) =
        held ∪ (given got).toFinset := by
        ext b
        rw [Finset.mem_filter]
        constructor
        · rintro ⟨hb, hne⟩
          rcases Finset.mem_union.mp hb with hb | hb
          · exact Finset.mem_union_left _ hb
          · rcases List.mem_cons.mp (List.mem_toFinset.mp hb) with rfl | hb
            · exact absurd rfl hne
            · exact Finset.mem_union_right _ (List.mem_toFinset.mpr hb)
        · intro hb
          have hin : b ∈ held ∪ (a :: given got).toFinset := by
            rw [List.toFinset_cons, Finset.union_insert]
            exact Finset.mem_insert_of_mem hb
          refine ⟨hin, fun heq => ?_⟩
          obtain rfl := h.inj b hin a hmem heq
          rcases Finset.mem_union.mp hb with hb | hb
          · exact hfresh b (List.mem_cons_self ..) hb
          · exact hnot (List.mem_toFinset.mp hb)
      simp only [Client.step, hrest] at hstep
      exact ih hstep (fun b hb => hfresh b (List.mem_cons_of_mem _ hb)) hnodup

end Heap

namespace Client

variable {p : MemPool}

/-- All the pieces are had, each of its own; or the pool is as it was. -/
theorem mallocAll_run (memmap : ℕ → UInt16) {cs : List HeapCall} (hcs : Disciplined p cs (start memmap))
    (sizes : List UInt32) :
    let s := cs.foldl (step p) (start memmap)
    let r := s.heap.mallocAll p sizes
    (r.1 = 1 ∧ Ok p ⟨r.2.2, s.held⟩ ∧
    ∀ i < p.memtblsize, (r.2.2.usable p).table i = (s.heap.usable p).table i) ∨
      (r.1 = 0 ∧ Ok p ⟨r.2.2, s.held ∪ (r.2.1.zip sizes).toFinset⟩ ∧
        (s.held ∪ (r.2.1.zip sizes).toFinset).card = s.held.card + sizes.length) := by
  have h := ok_run (ok_start memmap) hcs
  simp only
  generalize cs.foldl (step p) (start memmap) = s at h ⊢
  obtain ⟨hok, hfresh, hnodup⟩ := Heap.mallocs_ok sizes h
  have hlen := Heap.length_mallocs (p := p) sizes s.heap
  have hptrs : ((s.heap.mallocs p sizes).1.zip sizes).map Prod.fst = (s.heap.mallocs p sizes).1 :=
    List.map_fst_zip hlen.le
  rw [Heap.mallocAll]
  split_ifs with hzero
  · left
    have hback := Heap.frees_ok hok hfresh hnodup
    rw [hptrs] at hback
    exact ⟨rfl, hback, fun i hi => hback.table.ext h.table hi⟩
  · right
    have hall : Heap.given ((s.heap.mallocs p sizes).1.zip sizes) =
      (s.heap.mallocs p sizes).1.zip sizes := by
      refine List.filter_eq_self.mpr fun a ha => ?_
      simpa using fun heq : a.1 = 0 => hzero (heq ▸ (List.of_mem_zip ha).1)
    rw [hall] at hok hfresh hnodup
    refine ⟨rfl, hok, ?_⟩
    rw [Finset.card_union_of_disjoint, List.toFinset_card_of_nodup hnodup, List.length_zip,
      hlen, min_self]
    exact Finset.disjoint_right.mpr fun a ha => hfresh a (List.mem_toFinset.mp ha)

theorem mallocAll_run_sramCcm :
    let s := [HeapCall.malloc 100].foldl (step sramCcm) (start fun _ => 7)
    let eth := s.heap.ethMemMalloc sramCcm
    let lwip := s.heap.lwipCommMemMalloc sramCcm 9000
    (eth.1 = 1 ∧ Ok sramCcm ⟨eth.2.2, s.held⟩ ∨ eth.1 = 0 ∧
    Ok sramCcm ⟨eth.2.2, s.held ∪ (eth.2.1.zip Heap.ethSizes).toFinset⟩) ∧
      (lwip.1 = 1 ∧ Ok sramCcm ⟨lwip.2.2, s.held⟩ ∨
        lwip.1 = 0 ∧ Ok sramCcm
        ⟨lwip.2.2, s.held ∪ (lwip.2.1.zip (Heap.lwipCommSizes 9000)).toFinset⟩) := by
  have hcs : Disciplined sramCcm [.malloc 100] (start fun _ => 7) := ⟨trivial, trivial⟩
  have heth := mallocAll_run (fun _ => 7) hcs Heap.ethSizes
  have hlwip := mallocAll_run (fun _ => 7) hcs (Heap.lwipCommSizes 9000)
  simp only [Heap.ethMemMalloc, Heap.lwipCommMemMalloc]
  exact ⟨heth.imp (fun h => ⟨h.1, h.2.1⟩) fun h => ⟨h.1, h.2.1⟩,
    hlwip.imp (fun h => ⟨h.1, h.2.1⟩) fun h => ⟨h.1, h.2.1⟩⟩

end Client

end VectorFence
