import VectorFence.Lib.Memory
import VectorFence.Tcp.Message

/-! `tcp_recv_data` in the memory it writes to. `tcp_server_recvbuf` is at 0; it is cleared, and the
    pieces of the received chain are copied behind each other until more than the buffer holds has come:

        0 ──────── data_len ──────────────────── 512
        │ q₀ │ q₁ │ q₂ ·· the piece that does not fit is cut │ not written
                                                             ▲ the loop breaks

    `recvInto_eq` is the refinement: what is found in the buffer is what `tcpRecvData` takes from
    the chain. -/

namespace VectorFence

/-- The memory from `tcp_server_recvbuf` on. -/
abbrev Ram := ℕ → UInt8

namespace Tcp

open Memory

/-- The stores of the copy loop with `data_len` at its end. Offsets and lengths are `u32`. -/
def copyStores : Netbuf → ℕ → List (Store UInt8) × ℕ
  | [], dataLen => ([], dataLen)
  | q :: qs, dataLen =>
      let room := u32 ((tcpServerRxBufsize : ℤ) - dataLen)
      let store : Store UInt8 :=
        if room < q.payload.length then ⟨dataLen, q.payload.take room⟩ else ⟨dataLen, q.payload⟩
      let dataLen := u32 ((dataLen : ℤ) + q.payload.length)
      if tcpServerRxBufsize < dataLen then ([store], dataLen)
      else
        let r := copyStores qs dataLen
        (store :: r.1, r.2)

/-- All stores, `memset` first. -/
def recvStores (recvbuf : Netbuf) : List (Store UInt8) :=
  ⟨0, List.replicate tcpServerRxBufsize 0⟩ :: (copyStores recvbuf 0).1

/-- The memory after the copy loop. -/
def recvRam (ram : Ram) (recvbuf : Netbuf) : Ram := run ram (recvStores recvbuf)

/-- `tcp_recv_data` on a received buffer; where it returns `ERR_OK`, the contents of
    `tcp_server_recvbuf` that `parse_reply_data` is called with. -/
def recvInto (ram : Ram) (recvbuf : Netbuf) : Received :=
  let buf := recvRam ram recvbuf
  let dataLen := (copyStores recvbuf 0).2
  let err := tcpSendErr (buf 2) (buf 4)
  if buf 0 ≠ msgHead then .rejected err
  else if (buf 1).toNat ≠ u32 ((dataLen : ℤ) - 2) then .rejected err
  else if buf 4 ≠ msgTypeSearchDevice ∧ buf 3 ≠ deviceTypeTension then .rejected err
  else .accepted (read buf 0 tcpServerRxBufsize)

/-! ### The copy loop -/

/-- The stores adjoin each other, and what they write is what the loop copies. The offset never gets
    beyond the buffer, so that no difference wraps around. -/
theorem copyStores_spec : ∀ (qs : Netbuf) (dataLen : ℕ) (buf : List UInt8),
    dataLen ≤ tcpServerRxBufsize →
    Adjoining dataLen (copyStores qs dataLen).1 ∧
      copyPbufs qs buf dataLen = (buf ++ written (copyStores qs dataLen).1, (copyStores qs dataLen).2)
  | [], dataLen, buf, _ => ⟨trivial, by simp [copyPbufs, copyStores, written]⟩
  | q :: qs, dataLen, buf, h => by
      have hlen := q.len_lt
      have hroom : u32 ((tcpServerRxBufsize : ℤ) - dataLen) = tcpServerRxBufsize - dataLen := by
        rw [tcpServerRxBufsize] at h ⊢
        exact u32_eq (by omega) (by omega)
      have hnext : u32 ((dataLen : ℤ) + q.payload.length) = dataLen + q.payload.length := by
        rw [tcpServerRxBufsize] at h
        exact u32_eq (by omega) (by omega)
      -- both branches store the part that fits
      have hstore : (if tcpServerRxBufsize - dataLen < q.payload.length then
            (⟨dataLen, q.payload.take (tcpServerRxBufsize - dataLen)⟩ : Store UInt8) else
              ⟨dataLen, q.payload⟩) =
          ⟨dataLen, q.payload.take (tcpServerRxBufsize - dataLen)⟩ := by
        split_ifs with hfit
        · rfl
        · rw [List.take_of_length_le (by omega)]
      simp only [copyStores, copyPbufs, hroom, hnext, hstore]
      by_cases hover : tcpServerRxBufsize < dataLen + q.payload.length
      · rw [if_pos hover, if_pos hover]
        exact ⟨⟨rfl, trivial⟩, by simp [written]⟩
      · obtain ⟨hadj, hcopy⟩ := copyStores_spec qs (dataLen + q.payload.length)
          (buf ++ q.payload.take (tcpServerRxBufsize - dataLen)) (by omega)
        have hfit : (q.payload.take (tcpServerRxBufsize - dataLen)).length = q.payload.length := by
          rw [List.length_take]
          omega
        rw [if_neg hover, if_neg hover]
        refine ⟨⟨rfl, ?_⟩, ?_⟩
        · rw [hfit]
          exact hadj
        · rw [hcopy, written_cons, List.append_assoc]

/-- What is written into the buffer. -/
theorem written_copyStores (recvbuf : Netbuf) :
    written (copyStores recvbuf 0).1 = recvbuf.bytes.take tcpServerRxBufsize := by
  obtain ⟨-, hcopy⟩ := copyStores_spec recvbuf 0 [] (Nat.zero_le _)
  obtain ⟨hbuf, -⟩ := copyPbufs_eq recvbuf [] (by simp)
  rw [List.length_nil, hcopy] at hbuf
  simpa using hbuf

/-- The contents of the buffer: what fits of the chain, and zeros. -/
def filled (recvbuf : Netbuf) : List UInt8 :=
  recvbuf.bytes.take tcpServerRxBufsize ++ List.replicate (tcpServerRxBufsize - recvbuf.bytes.length) 0

theorem length_filled (recvbuf : Netbuf) : (filled recvbuf).length = tcpServerRxBufsize := by
  rw [filled, List.length_append, List.length_take, List.length_replicate]
  omega

theorem recvRam_eq (ram : Ram) (recvbuf : Netbuf) :
    recvRam ram recvbuf = put ram 0 (filled recvbuf) := by
  obtain ⟨hadj, -⟩ := copyStores_spec recvbuf 0 [] (Nat.zero_le _)
  have hrun : recvRam ram recvbuf =
      run (put ram 0 (List.replicate tcpServerRxBufsize 0)) (copyStores recvbuf 0).1 := rfl
  rw [hrun, run_adjoining _ 0 _ hadj, written_copyStores, put_put, List.drop_replicate,
    List.length_take, filled]
  congr 3
  omega

/-- Behind the chain the buffer is zero, as `byteAt` reads it. -/
theorem byteAt_filled {recvbuf : Netbuf} {i : ℕ}
    (h : i < tcpServerRxBufsize ∨ recvbuf.bytes.length ≤ tcpServerRxBufsize) :
    byteAt (filled recvbuf) i = byteAt recvbuf.bytes i := by
  rw [byteAt, byteAt, filled]
  by_cases hi : i < (recvbuf.bytes.take tcpServerRxBufsize).length
  · rw [List.getD_append _ _ _ _ hi]
    rw [List.length_take] at hi
    exact byteAt_take (by omega)
  · rw [List.getD_append_right _ _ _ _ (by omega)]
    rw [List.length_take] at hi
    rw [List.getD_eq_default recvbuf.bytes _ (by omega)]
    rw [List.getD_eq_getElem?_getD, List.getElem?_replicate]
    split_ifs <;> rfl

theorem recvRam_byte (ram : Ram) (recvbuf : Netbuf) {i : ℕ} (h : i < tcpServerRxBufsize) :
    recvRam ram recvbuf i = byteAt recvbuf.bytes i := by
  rw [recvRam_eq, ← byteAt_filled (Or.inl h), put, if_pos (Nat.zero_le i), Nat.sub_zero, byteAt,
    List.getD_eq_getElem _ _ (by rwa [length_filled]),
    List.getD_eq_getElem _ _ (by rwa [length_filled])]

theorem read_recvRam (ram : Ram) (recvbuf : Netbuf) :
    read (recvRam ram recvbuf) 0 tcpServerRxBufsize = filled recvbuf := by
  have hread := read_put ram 0 (filled recvbuf)
  rwa [length_filled, ← recvRam_eq] at hread

/-! ### What is handed on -/

/-- The buffer is taken for the request that `tcpRecvData` takes from the chain. -/
theorem recvInto_eq (ram : Ram) (recvbuf : Netbuf) : recvInto ram recvbuf =
    match tcpRecvData recvbuf with
    | .rejected err => .rejected err
    | .accepted _ => .accepted (filled recvbuf) := by
  have hat {i : ℕ} (hi : i < tcpServerRxBufsize) := recvRam_byte ram recvbuf hi
  obtain ⟨-, hcopy⟩ := copyStores_spec recvbuf 0 [] (Nat.zero_le _)
  obtain ⟨hbuf, -⟩ := copyPbufs_eq recvbuf [] (by simp)
  rw [List.nil_append, List.length_nil] at hbuf
  have hbyte {i : ℕ} (hi : i < tcpServerRxBufsize) :
      byteAt (copyPbufs recvbuf [] 0).1 i = byteAt recvbuf.bytes i := by rw [hbuf, byteAt_take hi]
  have hlen : (copyStores recvbuf 0).2 = (copyPbufs recvbuf [] 0).2 := by rw [hcopy]
  simp only [recvInto, tcpRecvData]
  rw [hat (by decide), hat (by decide), hat (by decide), hat (by decide), hat (by decide), hlen,
    read_recvRam,
    hbyte (by decide), hbyte (by decide), hbyte (by decide), hbyte (by decide), hbyte (by decide)]
  split_ifs <;> rfl

theorem parse_congr {buf buf' : List UInt8} (h : ∀ i, byteAt buf i = byteAt buf' i) (st : Station) :
    parseReplyData buf st = parseReplyData buf' st := by
  simp only [parseReplyData, setBufang, setParas, u16At, h]

/-- `parse_reply_data` does with the buffer what it does with the chain. -/
theorem parse_recvInto {ram : Ram} {recvbuf : Netbuf} {buf : List UInt8}
    (h : recvInto ram recvbuf = .accepted buf)
    (st : Station) : parseReplyData buf st = parseReplyData recvbuf.bytes st := by
  rw [recvInto_eq, tcpRecvData_eq] at h
  split_ifs at h with hw
  obtain rfl : filled recvbuf = buf := by simpa using h
  have hle := hw.1.length_le
  exact parse_congr (fun i => byteAt_filled (Or.inr (by rw [tcpServerRxBufsize]; omega))) st

/-- A received chain is copied up to the size of the buffer, nothing else is written, and a message
    is handed on only when its length byte is that of the whole chain. -/
theorem recvInto_copies (ram : Ram) (recvbuf : Netbuf) :
    read (recvRam ram recvbuf) 0 tcpServerRxBufsize = recvbuf.bytes.take tcpServerRxBufsize ++
        List.replicate (tcpServerRxBufsize - recvbuf.bytes.length) 0 ∧
      (∀ s ∈ recvStores recvbuf, s.addr + s.cells.length ≤ tcpServerRxBufsize) ∧
      (∀ x, tcpServerRxBufsize ≤ x → recvRam ram recvbuf x = ram x) ∧
      ∀ buf, recvInto ram recvbuf = .accepted buf → buf = read
        (recvRam ram recvbuf) 0 tcpServerRxBufsize ∧
        (byteAt buf 1).toNat + 2 = recvbuf.bytes.length ∧ recvbuf.bytes.length ≤ 257 := by
  refine ⟨read_recvRam ram recvbuf, ?_, ?_, ?_⟩
  · intro s hs
    rcases List.mem_cons.mp hs with rfl | hs
    · simp
    · obtain ⟨hadj, -⟩ := copyStores_spec recvbuf 0 [] (Nat.zero_le _)
      have hbound := hadj.bound s hs
      rw [written_copyStores, List.length_take] at hbound
      omega
  · intro x hx
    rw [recvRam_eq]
    exact put_outside ram (Or.inr (by rw [length_filled]; omega))
  · intro buf hbuf
    rw [recvInto_eq, tcpRecvData_eq] at hbuf
    split_ifs at hbuf with hw
    obtain rfl : filled recvbuf = buf := by simpa using hbuf
    refine ⟨(read_recvRam ram recvbuf).symm, ?_, hw.1.length_le⟩
    rw [byteAt_filled (Or.inl (by decide))]
    exact hw.1.2.2

end Tcp

end VectorFence
