import VectorFence.Lib.Handover
import VectorFence.Lib.Run

/-! The transmit side of the Ethernet driver. `low_level_output` copies a packet to the buffer of
    `DMATxDescToSet` and then asks `ETH_Tx_Packet` whether the descriptor is its own; the DMA sends
    what it has been given, one descriptor after the other.

        idle ─output─▶ copy ─▶ … ─▶ check ─free─▶ give ─▶ resume ─▶ idle
                                      └─OWN──▶ idle, ERR_MEM

    The copy comes before the check. With a full ring it goes to the frame that the DMA sends next. -/

namespace VectorFence

open Handover

def ethTxBufNb : ℕ := 5
def ethTxBufSize : ℕ := 1524

/-- OWN, `ControlBufferSize` and the buffer of a descriptor. -/
structure TxDesc where
  own : Bool
  size : ℕ
  buffer : List UInt8

/-- A packet: the payloads of its pbufs, which fit a buffer. -/
structure TxPacket where
  chain : List (List UInt8)
  le : chain.flatten.length ≤ ethTxBufSize
  deriving DecidableEq

/-- Where `low_level_output` stands; `l` bytes are copied, and `qs` are to follow. -/
inductive TxPc where
  | idle
  | copy (p : TxPacket) (l : ℕ) (qs : List (List UInt8))
  | check (p : TxPacket) (l : ℕ)
  | give (p : TxPacket) (l : ℕ)
  | resume
  deriving DecidableEq

/-- The ring, `DMATxDescToSet`, the descriptor where the DMA stands and whether it is suspended
    (TBUS); then the frames that `ETH_Tx_Packet` has accepted, those on the line, and whether every
    call found its descriptor free. -/
structure EthTx where
  desc : ℕ → TxDesc
  toSet : ℕ
  dma : ℕ
  tbus : Bool
  pc : TxPc
  accepted : List (List UInt8)
  sent : List (List UInt8)
  clean : Bool

inductive TxEvent where
  | output (p : TxPacket)
  | cpu
  | dma

namespace EthTx

/-- `ETH_DMATxDescChainInit`; the DMA has found nothing to send. -/
def ethDmaTxDescChainInit (buffer : ℕ → List UInt8) : EthTx where
  desc i := ⟨false, 0, buffer i⟩
  toSet := 0
  dma := 0
  tbus := true
  pc := .idle
  accepted := []
  sent := []
  clean := true

/-- `memcpy(&buffer[l],q->payload,q->len)`. -/
def memcpy (buffer : List UInt8) (l : ℕ) (q : List UInt8) : List UInt8 :=
  buffer.take l ++ q ++ buffer.drop (l + q.length)

/-- One step of `low_level_output` and `ETH_Tx_Packet`. -/
def cpu (s : EthTx) : EthTx :=
  let d := s.desc s.toSet
  match s.pc with
  | .idle => s
  | .copy p l (q :: qs) =>
      { s with
        desc := Function.update s.desc s.toSet { d with buffer := memcpy d.buffer l q }
        pc := .copy p (l + q.length) qs }
  | .copy p l [] => { s with pc := .check p l }
  | .check p l => { s with pc := if d.own then .idle else .give p l }
  | .give p l =>
      { s with
        desc := Function.update s.desc s.toSet { d with own := true, size := l % 0x2000 }
        pc := .resume
        accepted := s.accepted ++ [p.chain.flatten] }
  | .resume => { s with tbus := false, toSet := slot ethTxBufNb s.toSet 1, pc := .idle }

/-- The DMA sends the frame of its descriptor, or has nothing to send. -/
def dmaStep (s : EthTx) : EthTx :=
  let d := s.desc s.dma
  if s.tbus then s
  else if d.own then
    { s with
      desc := Function.update s.desc s.dma { d with own := false }
      dma := slot ethTxBufNb s.dma 1
      sent := s.sent ++ [d.buffer.take d.size] }
  else { s with tbus := true }

def step (s : EthTx) : TxEvent → EthTx
  | .output p => match s.pc with
      | .idle => { s with pc := .copy p 0 p.chain, clean := s.clean && !(s.desc s.toSet).own }
      | _ => s
  | .cpu => s.cpu
  | .dma => s.dmaStep

/-! ### What is in the ring -/

/-- What the DMA has to send with a descriptor. -/
def view (d : TxDesc) : Option (List UInt8) := if d.own then some (d.buffer.take d.size) else none

/-- A frame on the line is as long as the one accepted, and the same when every call found its
    descriptor free. -/
def Same (clean : Bool) (a b : List UInt8) : Prop := a.length = b.length ∧ (clean = true → a = b)

/-- How far the copy is. -/
def Copied (s : EthTx) : Prop :=
  match s.pc with
  | .idle | .resume => True
  | .copy p l qs => (s.clean = true → (s.desc s.toSet).own = false) ∧
      (s.desc s.toSet).buffer.take l ++ qs.flatten = p.chain.flatten ∧
      l + qs.flatten.length = p.chain.flatten.length
  | .check p l => (s.clean = true → (s.desc s.toSet).own = false) ∧
      (s.desc s.toSet).buffer.take l = p.chain.flatten ∧ l = p.chain.flatten.length
  | .give p l =>
      (s.desc s.toSet).own = false ∧ (s.desc s.toSet).buffer.take l = p.chain.flatten ∧
        l = p.chain.flatten.length

/-- The descriptor behind the frames; while the DMA is resumed `DMATxDescToSet` is still the one
    before. -/
def last (s : EthTx) : ℕ := if s.pc = .resume then slot ethTxBufNb s.toSet 1 else s.toSet

structure Inv (s : EthTx) (l : List (List UInt8)) : Prop where
  holds : Holds ethTxBufNb (view ∘ s.desc) s.dma l
  last : s.last = slot ethTxBufNb s.dma l.length
  toSet_lt : s.toSet < ethTxBufNb
  length : ∀ k < ethTxBufNb, (s.desc k).buffer.length = ethTxBufSize
  size_le : ∀ k < ethTxBufNb, (s.desc k).size ≤ ethTxBufSize
  same : (s.sent ++ l).Forall₂ (Same s.clean) s.accepted
  copied : s.Copied
  awake : s.tbus = true → l = [] ∨ s.pc = .resume

variable {s : EthTx} {l : List (List UInt8)}

theorem length_memcpy {buffer q : List UInt8} {n : ℕ} (h : n + q.length ≤ buffer.length) :
    (memcpy buffer n q).length = buffer.length := by
  simp only [memcpy, List.length_append, List.length_take, List.length_drop]
  omega

theorem take_memcpy {buffer q : List UInt8} {n : ℕ} (h : n + q.length ≤ buffer.length) :
    (memcpy buffer n q).take (n + q.length) = buffer.take n ++ q := by
  have hlen : (buffer.take n ++ q).length = n + q.length := by
    rw [List.length_append, List.length_take]
    omega
  rw [memcpy, ← hlen, List.take_left]

theorem Inv.own_iff (h : Inv s l) : (s.desc s.last).own = false ↔ l.length < ethTxBufNb := by
  rw [← h.holds.last, ← h.last, Function.comp_apply, view]
  split_ifs with hown
  · exact iff_of_false (by simp [hown]) (by simp)
  · exact iff_of_true (by simpa using hown) rfl

theorem inv_init (buffer : ℕ → List UInt8) (hbuffer : ∀ k, (buffer k).length = ethTxBufSize) :
    Inv (ethDmaTxDescChainInit buffer) [] where
  holds := holds_nil (by decide) fun _ _ => rfl
  last := rfl
  toSet_lt := Nat.zero_lt_succ 4
  length k _ := hbuffer k
  size_le _ _ := Nat.zero_le _
  same := .nil
  copied := trivial
  awake _ := .inl rfl

/-- The copy goes on as long as the buffer stays, and the descriptor the driver's. -/
theorem Copied.congr {s' : EthTx} (h : s.Copied) (hpc : s'.pc = s.pc) (hclean : s'.clean = s.clean)
    (hbuffer : (s'.desc s'.toSet).buffer = (s.desc s.toSet).buffer)
    (hown : (s.desc s.toSet).own = false → (s'.desc s'.toSet).own = false) : s'.Copied := by
  rw [Copied] at h ⊢
  rw [hpc, hbuffer, hclean]
  split at h
  · trivial
  · trivial
  · exact ⟨fun hc => hown (h.1 hc), h.2⟩
  · exact ⟨fun hc => hown (h.1 hc), h.2⟩
  · exact ⟨hown h.1, h.2⟩

/-- The DMA sends the first frame. -/
theorem inv_dmaStep (h : Inv s l) : ∃ l', Inv s.dmaStep l' := by
  by_cases htbus : s.tbus = true
  · rw [dmaStep, if_pos htbus]
    exact ⟨l, h⟩
  have hhead : view (s.desc s.dma) = l.head? := h.holds.head
  by_cases hown : (s.desc s.dma).own = true
  · rw [view, if_pos hown] at hhead
    obtain ⟨l, rfl⟩ : ∃ l', l = (s.desc s.dma).buffer.take (s.desc s.dma).size :: l' := by
      cases l with
      | nil => simp at hhead
      | cons x l =>
        rw [List.head?_cons, Option.some_inj] at hhead
        exact ⟨l, by rw [hhead]⟩
    have hstep : s.dmaStep = { s with
        desc := Function.update s.desc s.dma { s.desc s.dma with own := false }
        dma := slot ethTxBufNb s.dma 1
        sent := s.sent ++ [(s.desc s.dma).buffer.take (s.desc s.dma).size] } := by
      rw [dmaStep, if_neg htbus, if_pos hown]
    have hother (k : ℕ) : (Function.update s.desc s.dma { s.desc s.dma with own := false }
      k).buffer = (s.desc k).buffer ∧
        (Function.update s.desc s.dma { s.desc s.dma with own := false } k).size = (s.desc k).size ∧
        ((s.desc k).own = false →
        (Function.update s.desc s.dma { s.desc s.dma with own := false } k).own = false) := by
      rcases eq_or_ne k s.dma with rfl | hne
      · simp
      · simp [Function.update_of_ne hne]
    rw [hstep]
    refine ⟨l, ?_, ?_, h.toSet_lt, ?_, ?_, ?_, ?_, fun hb => absurd hb htbus⟩
    · rw [Function.comp_update]
      exact h.holds.take
    · rw [slot_slot, Nat.add_comm]
      exact h.last
    · exact fun k hk => by rw [(hother k).1, h.length k hk]
    · exact fun k hk => by rw [(hother k).2.1]; exact h.size_le k hk
    · rw [List.append_assoc]
      exact h.same
    · exact h.copied.congr rfl rfl (hother _).1 (hother _).2.2
  · have hnil : l = [] := by
      rw [view, if_neg hown] at hhead
      exact List.head?_eq_none_iff.mp hhead.symm
    rw [dmaStep, if_neg htbus, if_neg hown]
    exact ⟨l, h.holds, h.last, h.toSet_lt, h.length, h.size_le, h.same, h.copied, fun _ => .inl hnil⟩

theorem forall₂_replace {R : List UInt8 → List UInt8 → Prop} {a b c : List (List UInt8)}
    {x y : List UInt8}
    (h : (a ++ x :: b).Forall₂ R c) (hR : ∀ z, R x z → R y z) : (a ++ y :: b).Forall₂ R c := by
  induction a generalizing c with
  | nil =>
    obtain _ | ⟨hx, hb⟩ := h
    exact .cons (hR _ hx) hb
  | cons _ _ ih =>
    obtain _ | ⟨hx, hb⟩ := h
    exact .cons hx (ih hb)

theorem last_of_ne (h : s.pc ≠ .resume) : s.last = s.toSet := if_neg h

theorem Inv.move {pc : TxPc} (h : Inv s l) (hpc : s.pc ≠ .resume) (hpc' : pc ≠ .resume)
    (hcopied : Copied { s with pc := pc }) :
    Inv { s with pc := pc } l :=
  ⟨h.holds, (last_of_ne hpc').trans ((last_of_ne hpc).symm.trans h.last), h.toSet_lt, h.length,
    h.size_le, h.same, hcopied,
    fun htbus => .inl ((h.awake htbus).resolve_right hpc)⟩

/-- Something is written to the buffer of `DMATxDescToSet`: a buffer of the driver, or with a full
    ring the frame that is sent next. -/
theorem Inv.write {b : List UInt8} {pc : TxPc} (h : Inv s l) (hpc : s.pc ≠ .resume)
    (hpc' : pc ≠ .resume)
    (hown : s.clean = true → (s.desc s.toSet).own = false) (hb : b.length = ethTxBufSize)
    (hcopied : Copied { s with
      desc := Function.update s.desc s.toSet { s.desc s.toSet with buffer := b }
      pc := pc }) :
    ∃ l', Inv { s with
      desc := Function.update s.desc s.toSet { s.desc s.toSet with buffer := b }
      pc := pc } l' := by
  set desc' := Function.update s.desc s.toSet { s.desc s.toSet with buffer := b } with hdesc
  have hlength (k : ℕ) (hk : k < ethTxBufNb) :
    (desc' k).buffer.length = ethTxBufSize ∧ (desc' k).size ≤ ethTxBufSize := by
    rcases eq_or_ne k s.toSet with rfl | hne
    · rw [hdesc, Function.update_self]
      exact ⟨hb, h.size_le _ hk⟩
    · rw [hdesc, Function.update_of_ne hne]
      exact ⟨h.length k hk, h.size_le k hk⟩
  have hlast := (last_of_ne hpc).symm.trans h.last
  have hawake (htbus : s.tbus = true) : l = [] := (h.awake htbus).resolve_right hpc
  have hcell : view ∘ desc' = Function.update (view ∘ s.desc) s.toSet
    (view { s.desc s.toSet with buffer := b }) :=
    Function.comp_update ..
  cases hfree : (s.desc s.toSet).own with
  | false =>
    have hnone : view { s.desc s.toSet with buffer := b } = (view ∘ s.desc) s.toSet := by
      simp [view, hfree]
    rw [hnone, Function.update_eq_self] at hcell
    exact ⟨l, hcell ▸ h.holds, (last_of_ne hpc').trans hlast, h.toSet_lt, fun k hk => (hlength k hk).1,
      fun k hk => (hlength k hk).2, h.same, hcopied, fun htbus => .inl (hawake htbus)⟩
  | true =>
    -- the ring is full, and the buffer belongs to the frame that the DMA sends next
    have hfull : ¬l.length < ethTxBufNb := by
      rw [← h.own_iff, last_of_ne hpc, hfree]
      simp
    have hlen : l.length = ethTxBufNb := by
      have := h.holds.le
      omega
    have hdma : s.toSet = s.dma := by rw [hlast, hlen, slot_self h.holds.lt]
    obtain ⟨x, l, rfl⟩ := List.exists_cons_of_ne_nil
      (List.ne_nil_of_length_pos (hlen ▸ (by decide : 0 < ethTxBufNb)))
    have hx : (s.desc s.toSet).buffer.take (s.desc s.toSet).size = x := by
      have hhead := h.holds.head
      rw [← hdma, Function.comp_apply, view, if_pos hfree, List.head?_cons, Option.some_inj] at hhead
      exact hhead
    have hsome : view { s.desc s.toSet with buffer := b } = some (b.take (s.desc s.toSet).size) := by
      simp [view, hfree]
    refine ⟨b.take (s.desc s.toSet).size :: l, ?_, (last_of_ne hpc').trans hlast, h.toSet_lt,
      fun k hk => (hlength k hk).1,
      fun k hk => (hlength k hk).2, ?_, hcopied, fun htbus => absurd (hawake htbus) (by simp)⟩
    · rw [hcell, hsome, hdma]
      exact h.holds.replace _
    · refine forall₂_replace h.same fun z hz =>
        ⟨?_, fun hclean => absurd (hown hclean) (by simp [hfree])⟩
      rw [← hz.1, ← hx, List.length_take, List.length_take, hb, h.length _ h.toSet_lt]

theorem inv_cpu (h : Inv s l) : ∃ l', Inv s.cpu l' := by
  have hcopied := h.copied
  cases hpc : s.pc with
  | idle =>
    have hstep : s.cpu = s := by simp only [cpu, hpc]
    rw [hstep]
    exact ⟨l, h⟩
  | copy p n qs =>
    simp only [Copied, hpc] at hcopied
    obtain ⟨hown, hdata, hlen⟩ := hcopied
    cases qs with
    | nil =>
      rw [List.flatten_nil, List.append_nil] at hdata
      have hstep : s.cpu = { s with pc := .check p n } := by simp only [cpu, hpc]
      rw [hstep]
      exact ⟨l, h.move (by simp [hpc]) (by simp) ⟨hown, hdata, hlen⟩⟩
    | cons q qs =>
      rw [List.flatten_cons, List.length_append, ← Nat.add_assoc] at hlen
      have hsize := h.length _ h.toSet_lt
      have hfit : n + q.length ≤ (s.desc s.toSet).buffer.length := by
        have := p.le
        omega
      have hstep : s.cpu = { s with
          desc := Function.update s.desc s.toSet
            { s.desc s.toSet with buffer := memcpy (s.desc s.toSet).buffer n q }
          pc := .copy p (n + q.length) qs } := by
        simp only [cpu, hpc]
      rw [hstep]
      refine h.write (by simp [hpc]) (by simp) hown ((length_memcpy hfit).trans hsize) ?_
      simp only [Copied, Function.update_self]
      refine ⟨hown, ?_, hlen⟩
      rw [take_memcpy hfit, List.append_assoc]
      exact hdata
  | check p n =>
    simp only [Copied, hpc] at hcopied
    cases hfree : (s.desc s.toSet).own with
    | true =>
      have hstep : s.cpu = { s with pc := .idle } := by simp only [cpu, hpc, hfree, if_true]
      rw [hstep]
      exact ⟨l, h.move (by simp [hpc]) (by simp) trivial⟩
    | false =>
      have hstep : s.cpu = { s with pc := .give p n } := by simp [cpu, hpc, hfree]
      rw [hstep]
      exact ⟨l, h.move (by simp [hpc]) (by simp) ⟨hfree, hcopied.2⟩⟩
  | give p n =>
    simp only [Copied, hpc] at hcopied
    obtain ⟨hfree, hdata, hlen⟩ := hcopied
    have hlast := (last_of_ne (by simp [hpc])).symm.trans h.last
    have hroom := h.own_iff.mp (by rw [last_of_ne (by simp [hpc]), hfree])
    have hle : n ≤ ethTxBufSize := hlen ▸ p.le
    have hsize : n % 0x2000 = n := Nat.mod_eq_of_lt (by rw [ethTxBufSize] at hle; omega)
    have hstep : s.cpu = { s with
        desc := Function.update s.desc s.toSet { s.desc s.toSet with own := true, size := n }
        pc := .resume
        accepted := s.accepted ++ [p.chain.flatten] } := by
      simp only [cpu, hpc, hsize]
    rw [hstep]
    refine ⟨l ++ [p.chain.flatten], ?_, ?_, h.toSet_lt, fun k hk => ?_, fun k hk => ?_, ?_, trivial,
      fun _ => .inr rfl⟩
    · have hview : view { s.desc s.toSet with own := true, size := n } = some p.chain.flatten := by
        rw [view, if_pos rfl, hdata]
      rw [Function.comp_update, hview, hlast]
      exact h.holds.put hroom _
    · change slot ethTxBufNb s.toSet 1 = _
      rw [hlast, slot_slot, List.length_append, List.length_singleton]
    · rcases eq_or_ne k s.toSet with rfl | hne
      · simp only [Function.update_self]
        exact h.length _ hk
      · simp only [Function.update_of_ne hne]
        exact h.length k hk
    · rcases eq_or_ne k s.toSet with rfl | hne
      · simp only [Function.update_self]
        exact hle
      · simp only [Function.update_of_ne hne]
        exact h.size_le k hk
    · rw [← List.append_assoc]
      exact List.rel_append h.same (.cons ⟨rfl, fun _ => rfl⟩ .nil)
  | resume =>
    have hstep : s.cpu = { s with tbus := false, toSet := slot ethTxBufNb s.toSet 1, pc := .idle } := by
      simp only [cpu, hpc]
    have hlast : slot ethTxBufNb s.toSet 1 = slot ethTxBufNb s.dma l.length := by
      rw [← h.last, EthTx.last, if_pos hpc]
    rw [hstep]
    exact ⟨l, h.holds, hlast, slot_lt h.toSet_lt 1, h.length, h.size_le, h.same, trivial,
      fun htbus => by simp at htbus⟩

theorem inv_step (h : Inv s l) (e : TxEvent) : ∃ l', Inv (s.step e) l' := by
  cases e with
  | output p =>
    cases hpc : s.pc with
    | idle =>
      have hstep : s.step (.output p) =
          { s with pc := .copy p 0 p.chain, clean := s.clean && !(s.desc s.toSet).own } := by
        simp only [step, hpc]
      have hlast := (last_of_ne (by simp [hpc])).symm.trans h.last
      rw [hstep]
      refine ⟨l, h.holds, hlast, h.toSet_lt, h.length, h.size_le, ?_,
        ⟨?_, rfl, by rw [Nat.zero_add]⟩, fun htbus =>
        .inl ((h.awake htbus).resolve_right (by simp [hpc]))⟩
      · refine h.same.imp fun a b hab => ⟨hab.1, fun hclean => hab.2 ?_⟩
        exact (Bool.and_eq_true_iff.mp hclean).1
      · intro hclean
        simpa using (Bool.and_eq_true_iff.mp hclean).2
    | _ =>
      have hstep : s.step (.output p) = s := by simp only [step, hpc]
      rw [hstep]
      exact ⟨l, h⟩
  | cpu => exact inv_cpu h
  | dma => exact inv_dmaStep h

/-- Over every order of what the driver and the DMA do: the frames go out in the order in which they
    were accepted, each once and with its length, at most five are on their way, and while the
    driver rests the DMA does not sleep before the last. If every call found its descriptor free,
    every frame goes out as it was. -/
theorem sent_run (buffer : ℕ → List UInt8) (hbuffer : ∀ k, (buffer k).length = ethTxBufSize)
    (es : List TxEvent) :
    let s := es.foldl step (ethDmaTxDescChainInit buffer)
    s.sent.Forall₂ (Same s.clean) (s.accepted.take s.sent.length) ∧
    s.accepted.length ≤ s.sent.length + ethTxBufNb ∧
    (s.pc = .idle → s.tbus = true → s.sent.length = s.accepted.length) := by
  intro s
  obtain ⟨l, h⟩ : ∃ l, Inv s l :=
    Run.foldl_inv (fun s => ∃ l, Inv s l) (fun _ e ⟨_, h⟩ => inv_step h e) es _
    ⟨[], inv_init buffer hbuffer⟩
  have hlen := h.same.length_eq
  rw [List.length_append] at hlen
  have hle := h.holds.le
  refine ⟨?_, by omega, fun hidle htbus => ?_⟩
  · have htake := List.forall₂_take s.sent.length h.same
    rwa [List.take_left] at htake
  · have hnil := (h.awake htbus).resolve_right (by simp [hidle])
    rw [hnil, List.length_nil] at hlen
    omega

/-- A call with a packet of one byte. -/
def call (b : UInt8) : List TxEvent :=
  [.output ⟨[[b]], Nat.le_add_left 1 1523⟩, .cpu, .cpu, .cpu, .cpu, .cpu]

/-- Six packets before the DMA has sent one. -/
def sixCalls : List TxEvent := ([1, 2, 3, 4, 5, 6] : List UInt8).flatMap call ++ [.dma]

def zeroes : ℕ → List UInt8 := fun _ => List.replicate ethTxBufSize 0

/-- The sixth packet is refused, and goes out in the place of the first. -/
theorem sent_run_sixCalls : (sixCalls.foldl step (ethDmaTxDescChainInit zeroes)).sent = [[6]] ∧
    (sixCalls.foldl step (ethDmaTxDescChainInit zeroes)).accepted = [[1], [2], [3], [4], [5]] ∧
    [[6]].Forall₂ (Same (sixCalls.foldl step (ethDmaTxDescChainInit zeroes)).clean) [[1]] := by
  have hsent : (sixCalls.foldl step (ethDmaTxDescChainInit zeroes)).sent = [[6]] := by decide +kernel
  have haccepted : (sixCalls.foldl step (ethDmaTxDescChainInit zeroes)).accepted = [[1], [2], [3],
    [4], [5]] := by
    decide +kernel
  have hrun := (sent_run zeroes (fun _ => List.length_replicate) sixCalls).1
  rw [hsent, haccepted] at hrun
  exact ⟨hsent, haccepted, hrun⟩

end EthTx

end VectorFence
