import VectorFence.Eeprom
import VectorFence.Lib.Handover
import VectorFence.Lib.Run

/-! The receive side of the Ethernet driver (`lan8720.c`, `ethernetif.c`). The DMA stores what comes
    from the line in a ring of descriptors and asks for the interrupt; `ETH_IRQHandler` takes the
    frames out, one `lwip_packet_handler` each, while the DMA goes on.

        idle ─irq─▶ test ─size ≠ 0─▶ rx ─▶ alloc ─▶ copy ─▶ … ─▶ own ─▶ rbus ─▶ input ─▶ test
                     └─size = 0─▶ clear ─▶ idle       └─no pbuf──▶ own, rbus ─▶ test

    A frame that takes two descriptors has no `LS` in the first. `ETH_GetRxPktSize` is 0 for that
    one, so the handler goes no further than there, now and at every interrupt to come. -/

namespace VectorFence

open Handover

def ethRxBufNb : ℕ := 5
def ethRxBufSize : ℕ := 1524

/-- The bits of `Status` that the driver reads, and the buffer. -/
structure RxDesc where
  own : Bool
  es : Bool
  ls : Bool
  fs : Bool
  fl : ℕ
  buffer : List UInt8

/-- What the DMA writes to one descriptor: `fl` has the length of the frame with its CRC. -/
structure RxSeg where
  es : Bool
  ls : Bool
  fs : Bool
  fl : ℕ
  bytes : List UInt8
  size_le : bytes.length ≤ ethRxBufSize
  crc_le : ls = true → 4 ≤ fl
  whole : fs = true → ls = true → bytes.length = fl

/-- `FrameTypeDef`; `none` is a null pointer. -/
structure FrameTypeDef where
  length : ℕ
  buffer : Option ℕ
  descriptor : Option ℕ
  deriving DecidableEq

/-- The ring, `DMARxDescToGet`, the descriptor where the DMA stands, RBUS and the interrupt flags. -/
structure EthRx where
  desc : ℕ → RxDesc
  toGet : ℕ
  dma : ℕ
  rbus : Bool
  irq : Bool

namespace EthRx

/-- `Status=ETH_DMARxDesc_OWN`. -/
def setOwn (d : RxDesc) : RxDesc :=
  { d with own := true, es := false, ls := false, fs := false, fl := 0 }

/-- `ETH_DMARxDescChainInit`. -/
def ethDmaRxDescChainInit (buffer : ℕ → List UInt8) : EthRx where
  desc i := ⟨true, false, false, false, 0, buffer i⟩
  toGet := 0
  dma := 0
  rbus := false
  irq := false

/-- The DMA fills its descriptor, if it has one; the last of a frame asks for the interrupt. -/
def dmaStore (s : EthRx) (seg : RxSeg) : EthRx :=
  if (s.desc s.dma).own then
    { s with
      desc := Function.update s.desc s.dma
        ⟨false, seg.es, seg.ls, seg.fs, seg.fl,
        seg.bytes ++ (s.desc s.dma).buffer.drop seg.bytes.length⟩
      dma := slot ethRxBufNb s.dma 1
      irq := s.irq || seg.ls }
  else { s with rbus := true }

def ethGetRxPktSize (d : RxDesc) : ℕ := if !d.own && !d.es && d.ls then d.fl else 0

/-- RBUS is reset and the DMA resumed. -/
def resume (s : EthRx) : EthRx := if s.rbus then { s with rbus := false } else s

def ethRxPacket (s : EthRx) : FrameTypeDef × EthRx :=
  let d := s.desc s.toGet
  if d.own then (⟨0, none, none⟩, s.resume)
  else
    let frame :=
      if !d.es && d.ls && d.fs then FrameTypeDef.mk (u32 (d.fl - 4)) (some s.toGet) (some s.toGet)
      else ⟨0, none, some s.toGet⟩
    (frame, { s with toGet := slot ethRxBufNb s.toGet 1 })

/-- `frame.descriptor->Status=ETH_DMARxDesc_OWN`. -/
def giveBack (s : EthRx) (frame : FrameTypeDef) : EthRx :=
  match frame.descriptor with
  | some i => { s with desc := Function.update s.desc i (setOwn (s.desc i)) }
  | none => s

/-- What `frame.buffer` points to. -/
def bufferOf (s : EthRx) (frame : FrameTypeDef) : List UInt8 :=
  match frame.buffer with
  | some i => (s.desc i).buffer
  | none => []

/-- The `len` fields of a chain from `pbuf_alloc(PBUF_RAW,len,PBUF_POOL)`. -/
def pbufLens (len : ℕ) : List ℕ := if len ≤ 512 then [len] else 512 :: pbufLens (len - 512)

theorem sum_pbufLens (len : ℕ) : (pbufLens len).sum = len := by
  induction len using pbufLens.induct with
  | case1 len h => rw [pbufLens, if_pos h, List.sum_singleton]
  | case2 len h ih =>
    rw [pbufLens, if_neg h, List.sum_cons, ih]
    omega

end EthRx

/-- Where `ETH_IRQHandler` stands; `l` bytes are in the pbufs, and `qs` are to be filled. -/
inductive RxPc where
  | idle
  | test
  | rx
  | alloc (frame : FrameTypeDef)
  | copy (frame : FrameTypeDef) (p : List UInt8) (l : ℕ) (qs : List ℕ)
  | own (frame : FrameTypeDef) (p : Option (List UInt8))
  | rbus (p : Option (List UInt8))
  | input (p : List UInt8)
  | clear
  deriving DecidableEq

/-- What became of a frame. -/
inductive RxFate where
  | noPbuf
  | refused (p : List UInt8)
  | passed (p : List UInt8)

/-- The driver, what the DMA has stored and what became of it. -/
structure RxRun where
  eth : EthRx
  pc : RxPc
  stored : List RxSeg
  handled : List RxFate

/-- The DMA has a segment; the interrupt comes; the handler goes one step further. There `ok` is the
    answer of `pbuf_alloc` or `netif->input`. -/
inductive RxEvent where
  | dma (seg : RxSeg)
  | irq
  | cpu (ok : Bool)

namespace RxRun

def start (buffer : ℕ → List UInt8) : RxRun := ⟨EthRx.ethDmaRxDescChainInit buffer, .idle, [], []⟩

/-- One step of `ETH_IRQHandler` with `lwip_packet_handler`, `ethernetif_input` and
    `low_level_input`. -/
def cpu (s : RxRun) (ok : Bool) : RxRun :=
  match s.pc with
  | .idle => s
  | .test => { s with pc := if EthRx.ethGetRxPktSize (s.eth.desc s.eth.toGet) ≠ 0 then .rx else .clear }
  | .rx =>
      let r := s.eth.ethRxPacket
      { s with eth := r.2, pc := .alloc r.1 }
  | .alloc frame =>
      let len := frame.length % 0x10000
      { s with pc := if ok then .copy frame [] 0 (EthRx.pbufLens len) else .own frame none }
  | .copy frame p l (q :: qs) =>
      { s with pc := .copy frame (p ++ ((s.eth.bufferOf frame).drop l).take q) (l + q) qs }
  | .copy frame p _ [] => { s with pc := .own frame (some p) }
  | .own frame p => { s with eth := s.eth.giveBack frame, pc := .rbus p }
  | .rbus (some p) => { s with eth := s.eth.resume, pc := .input p }
  | .rbus none => { s with eth := s.eth.resume, pc := .test, handled := s.handled ++ [.noPbuf] }
  | .input p => { s with pc := .test, handled := s.handled ++ [if ok then .passed p else .refused p] }
  | .clear => { s with eth := { s.eth with irq := false }, pc := .idle }

def step (s : RxRun) : RxEvent → RxRun
  | .dma seg => { s with
      eth := s.eth.dmaStore seg
      stored := if (s.eth.desc s.eth.dma).own then s.stored ++ [seg] else s.stored }
  | .irq => match s.pc with
      | .idle => if s.eth.irq then { s with pc := .test } else s
      | _ => s
  | .cpu ok => s.cpu ok

end RxRun

/-! ### What the driver sees of a segment -/

/-- `ETH_GetRxPktSize` lets the segment through. -/
def RxSeg.passes (seg : RxSeg) : Bool := !seg.es && seg.ls

/-- The frame without its CRC. -/
def RxSeg.payload (seg : RxSeg) : List UInt8 :=
  if seg.ls && seg.fs then seg.bytes.take (seg.fl - 4) else []

namespace EthRx

/-- A descriptor as the driver reads it: the DMA's, or a segment that passes or not, and its frame. -/
def view (d : RxDesc) : Option (Bool × List UInt8) :=
  if d.own then none else some (!d.es && d.ls, if d.ls && d.fs then d.buffer.take (d.fl - 4) else [])

def seen (seg : RxSeg) : Bool × List UInt8 := (seg.passes, seg.payload)

theorem view_setOwn (d : RxDesc) : view (setOwn d) = none := rfl

theorem view_store (seg : RxSeg) (old : List UInt8) :
    view ⟨false, seg.es, seg.ls, seg.fs, seg.fl, seg.bytes ++ old⟩ = some (seen seg) := by
  rw [view, seen, RxSeg.passes, RxSeg.payload, if_neg (by simp)]
  cases hls : seg.ls <;> cases hfs : seg.fs
  · rfl
  · rfl
  · rfl
  · have hlen := seg.whole hfs hls
    simp only [Bool.and_true, if_true]
    rw [List.take_append_of_le_length (by omega)]

/-- The segments `l` lie in the ring from `i` on, and the DMA stands behind them; `fl` has its
    bounds. -/
structure Ringed (s : EthRx) (i : ℕ) (l : List (Bool × List UInt8)) : Prop where
  holds : Holds ethRxBufNb (view ∘ s.desc) i l
  dma : s.dma = slot ethRxBufNb i l.length
  crc_le : ∀ k, (s.desc k).ls = true → 4 ≤ (s.desc k).fl
  fl_le : ∀ k, (s.desc k).ls = true → (s.desc k).fs = true → (s.desc k).fl ≤ ethRxBufSize

variable {s : EthRx} {i : ℕ} {x : Bool × List UInt8} {l : List (Bool × List UInt8)}

theorem Ringed.own_iff (h : Ringed s i l) : (s.desc s.dma).own = true ↔ l.length < ethRxBufNb := by
  rw [← h.holds.last, ← h.dma, Function.comp_apply, view]
  split_ifs with hown
  · exact iff_of_true hown rfl
  · exact iff_of_false hown (by simp)

theorem Ringed.store (h : Ringed s i l) (hown : (s.desc s.dma).own = true) (seg : RxSeg) :
    Ringed (s.dmaStore seg) i (l ++ [seen seg]) := by
  have hput := h.holds.put (h.own_iff.mp hown) (seen seg)
  rw [dmaStore, if_pos hown]
  refine ⟨?_, ?_, fun k hls => ?_, fun k hls hfs => ?_⟩
  · rw [← h.dma] at hput
    rwa [Function.comp_update, view_store]
  · rw [h.dma, slot_slot, List.length_append, List.length_singleton]
  · rcases eq_or_ne k s.dma with rfl | hne
    · simp only [Function.update_self] at hls ⊢
      exact seg.crc_le hls
    · simp only [Function.update_of_ne hne] at hls ⊢
      exact h.crc_le k hls
  · rcases eq_or_ne k s.dma with rfl | hne
    · simp only [Function.update_self] at hls hfs ⊢
      exact seg.whole hfs hls ▸ seg.size_le
    · simp only [Function.update_of_ne hne] at hls hfs ⊢
      exact h.fl_le k hls hfs

/-- The first segment is the driver's, and stays as it is while the DMA goes on. -/
theorem Ringed.head_own (h : Ringed s i (x :: l)) :
    (s.desc i).own = false ∧ view (s.desc i) = some x := by
  have hhead : view (s.desc i) = some x := h.holds.head
  refine ⟨?_, hhead⟩
  by_contra hown
  rw [view, if_pos (by simpa using hown)] at hhead
  simp at hhead

theorem Ringed.desc_dmaStore (h : Ringed s i (x :: l)) (seg : RxSeg) :
    (s.dmaStore seg).desc i = s.desc i := by
  rw [dmaStore]
  split_ifs with hown
  · refine Function.update_of_ne ?_ ..
    rintro rfl
    rw [h.head_own.1] at hown
    simp at hown
  · rfl

/-- `frame` is the first segment of the ring, taken by `ETH_Rx_Packet`. -/
structure Taken (s : EthRx) (i : ℕ) (data : List UInt8) (frame : FrameTypeDef) : Prop where
  toGet : s.toGet = slot ethRxBufNb i 1
  descriptor : frame.descriptor = some i
  buffer : ∀ b, frame.buffer = some b → b = i
  data : (s.bufferOf frame).take (frame.length % 0x10000) = data

theorem Taken.bufferOf_congr {s' : EthRx} {data : List UInt8} {frame : FrameTypeDef}
    (h : Taken s i data frame)
    (hdesc : s'.desc i = s.desc i) : s'.bufferOf frame = s.bufferOf frame := by
  cases hb : frame.buffer with
  | none => simp only [bufferOf, hb]
  | some b =>
    obtain rfl := h.buffer b hb
    simp only [bufferOf, hb, hdesc]

theorem Taken.congr {s' : EthRx} {data : List UInt8} {frame : FrameTypeDef} (h : Taken s i data frame)
    (htoGet : s'.toGet = s.toGet) (hdesc : s'.desc i = s.desc i) : Taken s' i data frame :=
  ⟨htoGet.trans h.toGet, h.descriptor, h.buffer, (h.bufferOf_congr hdesc).symm ▸ h.data⟩

/-- The test of `ETH_IRQHandler`. -/
theorem Ringed.size_ne_zero_iff (h : Ringed s i l) :
    ethGetRxPktSize (s.desc i) ≠ 0 ↔ ∃ d l', l = (true, d) :: l' := by
  have hhead : view (s.desc i) = l.head? := h.holds.head
  have hcrc := h.crc_le i
  cases l with
  | nil =>
    have hown : (s.desc i).own = true := by
      by_contra hown
      rw [view, if_neg hown] at hhead
      simp at hhead
    simp [ethGetRxPktSize, hown]
  | cons x l =>
    have hown := h.head_own.1
    rw [view, if_neg (by simp [hown]), List.head?_cons, Option.some_inj] at hhead
    have hpass : x.1 = (!(s.desc i).es && (s.desc i).ls) := by rw [← hhead]
    constructor
    · intro hsize
      rw [ethGetRxPktSize, hown, Bool.not_false, Bool.true_and, ← hpass] at hsize
      refine ⟨x.2, l, ?_⟩
      rw [← Prod.eta x, (by by_contra hx; simp [hx] at hsize : x.1 = true)]
    · rintro ⟨d, l', heq⟩
      rw [List.cons.injEq] at heq
      rw [heq.1] at hpass
      rw [ethGetRxPktSize, hown, Bool.not_false, Bool.true_and, if_pos hpass.symm]
      have hls := (Bool.and_eq_true_iff.mp hpass.symm).2
      have := hcrc hls
      omega

theorem Ringed.of_desc {s' : EthRx} (h : Ringed s i l) (hdesc : s'.desc = s.desc)
    (hdma : s'.dma = s.dma) : Ringed s' i l :=
  ⟨hdesc ▸ h.holds, hdma.trans h.dma, hdesc ▸ h.crc_le, hdesc ▸ h.fl_le⟩

/-- `ETH_Rx_Packet` takes the first segment. -/
theorem Ringed.rx {d : List UInt8} (h : Ringed s i ((true, d) :: l)) (htoGet : s.toGet = i) :
    Ringed s.ethRxPacket.2 i ((true, d) :: l) ∧ Taken s.ethRxPacket.2 i d s.ethRxPacket.1 := by
  obtain ⟨hown, hhead⟩ := h.head_own
  rw [view, if_neg (by simp [hown]), Option.some_inj, Prod.mk.injEq] at hhead
  obtain ⟨hpass, hdata⟩ := hhead
  have hls := (Bool.and_eq_true_iff.mp hpass).2
  rw [hls, Bool.true_and] at hdata
  have hcrc := h.crc_le i hls
  have hpacket : s.ethRxPacket = (if (s.desc i).fs = true then ⟨u32 ((s.desc i).fl - 4), some i,
    some i⟩ else ⟨0, none, some i⟩,
      { s with toGet := slot ethRxBufNb i 1 }) := by
    rw [ethRxPacket, htoGet]
    simp only [hown, hpass, Bool.true_and, Bool.false_eq_true, if_false]
  rw [hpacket]
  refine ⟨h.of_desc rfl rfl, ?_⟩
  split_ifs at hdata ⊢ with hfs
  · have hle := h.fl_le i hls hfs
    rw [ethRxBufSize] at hle
    have hlen : u32 ((s.desc i).fl - 4) = (s.desc i).fl - 4 := u32_eq (by omega) (by omega)
    refine ⟨rfl, rfl, fun b hb => (Option.some_inj.mp hb).symm, ?_⟩
    change (s.desc i).buffer.take (u32 ((s.desc i).fl - 4) % 0x10000) = d
    rw [hlen, Nat.mod_eq_of_lt (by omega), hdata]
  · exact ⟨rfl, rfl, fun b hb => by simp at hb, by rw [← hdata]; rfl⟩

/-- The descriptor is the DMA's again. -/
theorem Ringed.giveBack {frame : FrameTypeDef} {data : List UInt8} (h : Ringed s i (x :: l))
    (htaken : Taken s i data frame) :
    Ringed (s.giveBack frame) (slot ethRxBufNb i 1) l ∧
    (s.giveBack frame).toGet = slot ethRxBufNb i 1 := by
  rw [EthRx.giveBack, htaken.descriptor]
  refine ⟨⟨?_, ?_, fun k hls => ?_, fun k hls hfs => ?_⟩, htaken.toGet⟩
  · rw [Function.comp_update, view_setOwn]
    exact h.holds.take
  · rw [slot_slot, Nat.add_comm]
    exact h.dma
  · rcases eq_or_ne k i with rfl | hne
    · simp [setOwn] at hls
    · simp only [Function.update_of_ne hne] at hls ⊢
      exact h.crc_le k hls
  · rcases eq_or_ne k i with rfl | hne
    · simp [setOwn] at hls
    · simp only [Function.update_of_ne hne] at hls hfs ⊢
      exact h.fl_le k hls hfs

end EthRx

/-! ### Runs -/

/-- What `netif->input` got. -/
def RxFate.data : RxFate → Option (List UInt8)
  | .noPbuf => none
  | .refused p | .passed p => some p

/-- The frame `x` passed, and `netif->input` got it as it is if it got anything. -/
def RxFate.Of (r : RxFate) (x : Bool × List UInt8) : Prop := x.1 = true ∧ ∀ p ∈ r.data, p = x.2

namespace RxRun

open EthRx

/-- The descriptors of `done` were given back, those of `l` lie in the ring from `i` on. -/
def Stands (s : RxRun) (i : ℕ) (done l : List (Bool × List UInt8)) : Prop :=
  match s.pc with
  | .idle | .test | .clear => s.eth.toGet = i ∧ s.handled.Forall₂ RxFate.Of done
  | .rx => (s.eth.toGet = i ∧ s.handled.Forall₂ RxFate.Of done) ∧ ∃ d l', l = (true, d) :: l'
  | .alloc frame =>
      s.handled.Forall₂ RxFate.Of done ∧ ∃ d l', l = (true, d) :: l' ∧ Taken s.eth i d frame
  | .copy frame p n qs =>
      s.handled.Forall₂ RxFate.Of done ∧ ∃ d l', l = (true, d) :: l' ∧ Taken s.eth i d frame ∧
      p = (s.eth.bufferOf frame).take n ∧ n + qs.sum = frame.length % 0x10000
  | .own frame p =>
      s.handled.Forall₂ RxFate.Of done ∧ ∃ d l', l = (true, d) :: l' ∧ Taken s.eth i d frame ∧
        ∀ b ∈ p, b = d
  | .rbus p =>
      s.eth.toGet = i ∧ ∃ done' d, done = done' ++ [(true, d)] ∧ s.handled.Forall₂ RxFate.Of done' ∧
        ∀ b ∈ p, b = d
  | .input p =>
      s.eth.toGet = i ∧ ∃ done', done = done' ++ [(true, p)] ∧ s.handled.Forall₂ RxFate.Of done'

def Inv (s : RxRun) : Prop :=
  ∃ i done l, s.stored.map seen = done ++ l ∧ s.eth.Ringed i l ∧ s.Stands i done l

variable {s : RxRun} {i : ℕ} {done l : List (Bool × List UInt8)}

theorem inv_start (buffer : ℕ → List UInt8) : (start buffer).Inv :=
  ⟨0, [], [], rfl, ⟨holds_nil (by decide) fun _ _ => rfl, rfl,
    fun _ h => by simp [start, ethDmaRxDescChainInit] at h,
    fun _ h => by simp [start, ethDmaRxDescChainInit] at h⟩, rfl, .nil⟩

theorem toGet_dmaStore (s : EthRx) (seg : RxSeg) : (s.dmaStore seg).toGet = s.toGet := by
  rw [dmaStore]
  split_ifs <;> rfl

/-- What the DMA stores changes nothing of what the handler has in hand. -/
theorem Stands.dma (h : s.Stands i done l) (hring : s.eth.Ringed i l) (seg : RxSeg)
    (more : List (Bool × List UInt8))
    (stored : List RxSeg) : Stands { s with eth := s.eth.dmaStore seg, stored := stored } i done
    (l ++ more) := by
  obtain ⟨eth, pc, _, handled⟩ := s
  have htoGet := toGet_dmaStore eth seg
  cases pc with
  | idle | test | clear => exact ⟨htoGet.trans h.1, h.2⟩
  | rx =>
    obtain ⟨⟨hi, hdone⟩, d, l', rfl⟩ := h
    exact ⟨⟨htoGet.trans hi, hdone⟩, d, l' ++ more, rfl⟩
  | alloc frame =>
    obtain ⟨hdone, d, l', rfl, ht⟩ := h
    exact ⟨hdone, d, l' ++ more, rfl, ht.congr htoGet (hring.desc_dmaStore seg)⟩
  | copy frame p n qs =>
    obtain ⟨hdone, d, l', rfl, ht, hp, hsum⟩ := h
    have hdesc := hring.desc_dmaStore seg
    exact ⟨hdone, d, l' ++ more, rfl, ht.congr htoGet hdesc, (ht.bufferOf_congr hdesc).symm ▸ hp, hsum⟩
  | own frame p =>
    obtain ⟨hdone, d, l', rfl, ht, hp⟩ := h
    exact ⟨hdone, d, l' ++ more, rfl, ht.congr htoGet (hring.desc_dmaStore seg), hp⟩
  | rbus p | input p => exact ⟨htoGet.trans h.1, h.2⟩

theorem resume_eq (s : EthRx) : s.resume = { s with rbus := false } := by
  rw [resume]
  split_ifs with h
  · rfl
  · rw [← Bool.eq_false_of_not_eq_true h]

theorem forall₂_concat {handled : List RxFate} {r : RxFate} {d : List UInt8}
    (h : handled.Forall₂ RxFate.Of done)
    (hr : r.Of (true, d)) : (handled ++ [r]).Forall₂ RxFate.Of (done ++ [(true, d)]) :=
  List.rel_append h (.cons hr .nil)

theorem inv_cpu (h : s.Inv) (ok : Bool) : (s.cpu ok).Inv := by
  obtain ⟨i, done, l, hstored, hring, hstands⟩ := h
  obtain ⟨eth, pc, stored, handled⟩ := s
  cases pc with
  | idle => exact ⟨i, done, l, hstored, hring, hstands⟩
  | test =>
    obtain ⟨htoGet, hdone⟩ := hstands
    refine ⟨i, done, l, hstored, hring, ?_⟩
    by_cases hsize : ethGetRxPktSize (eth.desc eth.toGet) ≠ 0
    · have hpc : RxRun.cpu ⟨eth, .test, stored, handled⟩ ok = ⟨eth, .rx, stored, handled⟩ := by
        simp only [cpu, if_pos hsize]
      rw [hpc]
      rw [htoGet, hring.size_ne_zero_iff] at hsize
      exact ⟨⟨htoGet, hdone⟩, hsize⟩
    · have hpc : RxRun.cpu ⟨eth, .test, stored, handled⟩ ok = ⟨eth, .clear, stored, handled⟩ := by
        simp only [cpu, if_neg hsize]
      rw [hpc]
      exact ⟨htoGet, hdone⟩
  | rx =>
    obtain ⟨⟨htoGet, hdone⟩, d, l', rfl⟩ := hstands
    obtain ⟨hring', ht⟩ := hring.rx htoGet
    exact ⟨i, done, _, hstored, hring', hdone, d, l', rfl, ht⟩
  | alloc frame =>
    obtain ⟨hdone, d, l', rfl, ht⟩ := hstands
    refine ⟨i, done, _, hstored, hring, ?_⟩
    cases ok with
    | true => exact ⟨hdone, d, l', rfl, ht, rfl, by rw [Nat.zero_add, sum_pbufLens]⟩
    | false => exact ⟨hdone, d, l', rfl, ht, by simp⟩
  | copy frame p n qs =>
    obtain ⟨hdone, d, l', rfl, ht, hp, hsum⟩ := hstands
    cases qs with
    | nil =>
      refine ⟨i, done, _, hstored, hring, hdone, d, l', rfl, ht, fun b hb => ?_⟩
      rw [List.sum_nil, Nat.add_zero] at hsum
      rw [← Option.some_inj.mp hb, hp, hsum]
      exact ht.data
    | cons q qs =>
      have hnext : p ++ ((eth.bufferOf frame).drop n).take q = (eth.bufferOf frame).take (n + q) := by
        rw [hp, List.take_add]
      rw [List.sum_cons, ← Nat.add_assoc] at hsum
      exact ⟨i, done, _, hstored, hring, hdone, d, l', rfl, ht, hnext, hsum⟩
  | own frame p =>
    obtain ⟨hdone, d, l', rfl, ht, hp⟩ := hstands
    obtain ⟨hring', htoGet⟩ := hring.giveBack ht
    exact ⟨_, done ++ [(true, d)], l', hstored.trans (List.append_cons ..), hring', htoGet, done, d,
      rfl, hdone, hp⟩
  | rbus p =>
    obtain ⟨htoGet, done', d, rfl, hdone, hp⟩ := hstands
    refine ⟨i, _, l, by cases p <;> exact hstored,
      hring.of_desc (by cases p <;> simp only [cpu, resume_eq])
      (by cases p <;> simp only [cpu, resume_eq]), ?_⟩
    cases p with
    | none =>
        exact ⟨by simp only [cpu, resume_eq]; exact htoGet,
          forall₂_concat hdone ⟨rfl, fun _ h => by cases h⟩⟩
    | some p =>
      obtain rfl := hp p rfl
      exact ⟨by simp only [cpu, resume_eq]; exact htoGet, done', rfl, hdone⟩
  | input p =>
    obtain ⟨htoGet, done', rfl, hdone⟩ := hstands
    refine ⟨i, _, l, hstored, hring, htoGet, forall₂_concat hdone ?_⟩
    cases ok with
    | true | false => exact ⟨rfl, fun b hb => (Option.some_inj.mp hb).symm⟩
  | clear => exact ⟨i, done, l, hstored, hring.of_desc rfl rfl, hstands⟩

theorem inv_step (h : s.Inv) (e : RxEvent) : (s.step e).Inv := by
  cases e with
  | dma seg =>
    obtain ⟨i, done, l, hstored, hring, hstands⟩ := h
    by_cases hown : (s.eth.desc s.eth.dma).own
    · refine ⟨i, done, l ++ [seen seg], ?_, hring.store hown seg, hstands.dma hring seg _ _⟩
      rw [step]
      simp only [if_pos hown, List.map_append, hstored, List.append_assoc, List.map_singleton]
    · have hsame : s.eth.dmaStore seg = { s.eth with rbus := true } := if_neg hown
      have hstands' := hstands.dma hring seg [] s.stored
      rw [List.append_nil, hsame] at hstands'
      refine ⟨i, done, l, ?_, ?_, ?_⟩
      · simp only [step, if_neg hown, hstored]
      · simp only [step, hsame]
        exact hring.of_desc rfl rfl
      · simp only [step, if_neg hown, hsame]
        exact hstands'
  | irq =>
    obtain ⟨eth, pc, stored, handled⟩ := s
    cases pc with
    | idle =>
      obtain ⟨i, done, l, hstored, hring, hstands⟩ := h
      cases hirq : eth.irq with
      | false => simpa only [step, hirq] using ⟨i, done, l, hstored, hring, hstands⟩
      | true =>
        simp only [step, hirq, if_true]
        exact ⟨i, done, l, hstored, hring, hstands⟩
    | _ => exact h
  | cpu ok => exact inv_cpu h ok

theorem inv_run (buffer : ℕ → List UInt8) (es : List RxEvent) : (es.foldl step (start buffer)).Inv :=
  Run.foldl_inv Inv (fun _ e h => inv_step h e) es _ (inv_start buffer)

theorem passes_of_done {r : List RxFate} (h : r.Forall₂ RxFate.Of done) : ∀ x ∈ done, x.1 = true := by
  induction h with
  | nil => simp
  | cons hof _ ih => exact List.forall_mem_cons.mpr ⟨hof.1, ih⟩

/-- The segments that were given back all passed, and the handler is done with all of them, or with
    all but the last. -/
theorem Stands.front (h : s.Stands i done l) :
    (∀ x ∈ done, x.1 = true) ∧ ∃ done' rest, done = done' ++ rest ∧
    s.handled.Forall₂ RxFate.Of done' := by
  obtain ⟨eth, pc, stored, handled⟩ := s
  have hwhole (hdone : handled.Forall₂ RxFate.Of done) :
      (∀ x ∈ done, x.1 = true) ∧ ∃ done' rest, done = done' ++ rest ∧ handled.Forall₂ RxFate.Of done' :=
    ⟨passes_of_done hdone, done, [], (List.append_nil _).symm, hdone⟩
  have hlast {done' : List (Bool × List UInt8)} {d : List UInt8}
    (hdone : handled.Forall₂ RxFate.Of done')
      (heq : done = done' ++ [(true, d)]) :
      (∀ x ∈ done, x.1 = true) ∧ ∃ done' rest, done = done' ++ rest ∧
      handled.Forall₂ RxFate.Of done' := by
    refine ⟨?_, done', _, heq, hdone⟩
    rw [heq, List.forall_mem_append]
    exact ⟨passes_of_done hdone, by simp⟩
  cases pc with
  | idle | test | clear => exact hwhole h.2
  | rx => exact hwhole h.1.2
  | alloc | copy | own => exact hwhole h.1
  | rbus p =>
    obtain ⟨-, done', d, heq, hdone, -⟩ := h
    exact hlast hdone heq
  | input p =>
    obtain ⟨-, done', heq, hdone⟩ := h
    exact hlast hdone heq

/-- What passes of a list whose beginning passes. -/
theorem takeWhile_stored {stored : List RxSeg} (hstored : stored.map seen = done ++ l)
    (hpass : ∀ x ∈ done, x.1 = true) :
    (stored.takeWhile RxSeg.passes).map seen = done ++ l.takeWhile Prod.fst := by
  have hmap : (stored.takeWhile RxSeg.passes).map seen = (stored.map seen).takeWhile Prod.fst := by
    rw [List.takeWhile_map]
    rfl
  rw [hmap, hstored, List.takeWhile_append_of_pos hpass]

/-- Over every order of what the DMA, the interrupt and the handler do: the frames that the handler
    is done with are those stored first, in their order and none twice, and what `netif->input` gets
    is the frame as it came. None of them is behind a segment that does not pass. -/
theorem handled_run (buffer : ℕ → List UInt8) (es : List RxEvent) :
    let s := es.foldl step (start buffer)
    s.handled.Forall₂ (fun r seg => ∀ p ∈ r.data, p = seg.payload)
      ((s.stored.takeWhile RxSeg.passes).take s.handled.length) := by
  intro s
  obtain ⟨i, done, l, hstored, -, hstands⟩ : Inv s := inv_run buffer es
  obtain ⟨hpass, done', rest, rfl, hdone⟩ := hstands.front
  have hmap := takeWhile_stored hstored hpass
  have htake : ((s.stored.takeWhile RxSeg.passes).take s.handled.length).map seen = done' := by
    rw [List.map_take, hmap, List.append_assoc, hdone.length_eq, List.take_left]
  rw [← htake, List.forall₂_map_right_iff] at hdone
  exact hdone.imp fun _ _ hof => hof.2

/-- A segment that does not pass stops the receiver: behind it the DMA stores what the ring has
    left, and then nothing. -/
theorem stuck_run (buffer : ℕ → List UInt8) (es : List RxEvent) :
    let s := es.foldl step (start buffer)
    s.stored.length ≤ (s.stored.takeWhile RxSeg.passes).length + ethRxBufNb := by
  intro s
  obtain ⟨i, done, l, hstored, hring, hstands⟩ : Inv s := inv_run buffer es
  have hmap := congrArg List.length (takeWhile_stored hstored hstands.front.1)
  have hall := congrArg List.length hstored
  rw [List.length_map, List.length_append] at hmap hall
  have hle := hring.holds.le
  omega

/-- At the end of an interrupt nothing waits that could be taken: the handler is done with
    everything before the first segment that does not pass. -/
theorem interrupt_done (buffer : ℕ → List UInt8) (es : List RxEvent) (ok : Bool) :
    let s := es.foldl step (start buffer)
    s.pc = .test → (s.step (.cpu ok)).pc = .clear → s.handled.length =
    (s.stored.takeWhile RxSeg.passes).length := by
  intro s htest hclear
  obtain ⟨i, done, l, hstored, hring, hstands⟩ : Inv s := inv_run buffer es
  have hnone : ¬ethGetRxPktSize (s.eth.desc s.eth.toGet) ≠ 0 := by
    intro hsize
    rw [step, cpu, htest] at hclear
    simp only [if_pos hsize] at hclear
    simp at hclear
  rw [Stands, htest] at hstands
  obtain ⟨htoGet, hdone⟩ := hstands
  rw [htoGet, hring.size_ne_zero_iff] at hnone
  have hstop : l.takeWhile Prod.fst = [] := by
    cases l with
    | nil => rfl
    | cons x l =>
      rw [List.takeWhile_cons, if_neg]
      rintro hx
      exact hnone ⟨x.2, l, by rw [← hx]⟩
  have hmap := congrArg List.length (takeWhile_stored hstored (passes_of_done hdone))
  rw [hstop, List.append_nil, List.length_map] at hmap
  rw [hdone.length_eq, hmap]

/-- A frame of two bytes and its CRC. -/
def shortSeg : RxSeg := ⟨false, true, true, 6, [1, 2, 0, 0, 0, 0], by decide, by decide, by decide⟩

/-- One frame, from the line to the end of the interrupt. -/
def oneFrame : List RxEvent :=
  [.dma shortSeg, .irq, .cpu true, .cpu true, .cpu true, .cpu true, .cpu true, .cpu true,
    .cpu true, .cpu true]

theorem interrupt_done_oneFrame : (oneFrame.foldl step (start fun _ => [])).handled.length = 1 := by
  have htest : (oneFrame.foldl step (start fun _ => [])).pc = .test := by decide +kernel
  have hclear : ((oneFrame.foldl step (start fun _ => [])).step (.cpu true)).pc = .clear := by
    decide +kernel
  rw [interrupt_done _ oneFrame true htest hclear]
  decide +kernel

end RxRun

end VectorFence
