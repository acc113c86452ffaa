import VectorFence.Station

/-! The messages of `tcp_server.c`. A request is one network buffer; an answer is one frame:

        0     1       2     3        4     5 …
        0x94  length  zone  device   type  body            length = bytes behind the length byte

    `tcp_recv_data` copies the buffer into 512 bytes that were cleared before and checks head,
    length and device type; `parse_reply_data` checks the zone number, carries the request out and
    answers it. Bytes that were not received are read as zero. -/

namespace VectorFence

/-- A `struct pbuf`: a piece of a received buffer. -/
structure Pbuf where
  payload : List UInt8
  len_lt : payload.length < 0x10000

/-- What `netconn_recv` returns: a chain of pieces. -/
abbrev Netbuf := List Pbuf

/-- The bytes of the chain. -/
def Netbuf.bytes (recvbuf : Netbuf) : List UInt8 := recvbuf.flatMap Pbuf.payload

/-- A message that arrives in one piece. -/
def Netbuf.single (m : List UInt8) (h : m.length < 0x10000) : Netbuf := [⟨m, h⟩]

def msgHead : UInt8 := 0x94
def resultOk : UInt8 := 0x00
def resultError : UInt8 := 0x01
def deviceTypeTension : UInt8 := 1
def tcpServerRxBufsize : ℕ := 512

def msgTypeSearchDevice : UInt8 := 0x01
def msgTypeSetBufang : UInt8 := 0x02
def msgTypeAlarmReset : UInt8 := 0x03
def msgTypeSetParas : UInt8 := 0x04
def msgTypeGetDelayedAlarmStatus : UInt8 := 0x05
def msgTypeGetStatus : UInt8 := 0x06

def defenceStatusShutdown : UInt8 := 0x04
def defenceStatusPower : UInt8 := 0x03
def defenceStatusBufang : UInt8 := 0x01
def defenceStatusChefang : UInt8 := 0x00

namespace Tcp

open FieldPara

/-- `tcp_server_recvbuf[i]`: the buffer was cleared before. -/
def byteAt (buf : List UInt8) (i : ℕ) : UInt8 := buf.getD i 0

/-- `(u16)(tcp_server_recvbuf[i] << 8 | tcp_server_recvbuf[i+1])`. -/
def u16At (buf : List UInt8) (i : ℕ) : UInt16 := bytesU16 (byteAt buf i) (byteAt buf (i + 1))

/-! ### Sending -/

/-- The frame in `tcp_server_sendbuf`, the length filled in at the end. -/
def frame (body : List UInt8) : List UInt8 := msgHead :: UInt8.ofNat body.length :: body

def tcpSendErr (fieldNum msgType : UInt8) : List UInt8 :=
  frame [fieldNum, deviceTypeTension, msgType, resultError]

/-- What the two status requests are answered with; they differ in the alarm word they report. -/
def statusBody (st : Station) (fieldNum alarmStatus : UInt8) : List UInt8 :=
  [if st.dev.alarm.remoteShutdown then 4 else st.dev.getBFFlag fieldNum, alarmStatus] ++
    u16Bytes (st.dev.getAlarmDelay fieldNum) ++
    [st.dev.para.alarmSensitivity (st.dev.getFieldIndex fieldNum)] ++
    u16Bytes st.dev.alarm.alarmThresholdUpDif ++ u16Bytes st.dev.alarm.alarmThresholdDownDif ++
    u16Bytes st.dev.adc.tensionMaxRange ++ u16Bytes st.dev.adc.baseAutoCalibrateTime ++
    [st.dev.getPeerFieldNum fieldNum, (st.swType 0).toUInt8, (st.swType 1).toUInt8]

/-- The part of an answer that depends on the type of the request. -/
def dataBody (st : Station) (fieldNum msgType : UInt8) : List UInt8 :=
  if msgType = msgTypeSearchDevice then [st.dev.para.fieldNum 0, st.dev.para.fieldNum 1]
  else if msgType = msgTypeGetDelayedAlarmStatus then
    statusBody st fieldNum (st.dev.getAlarmDelayedStatus fieldNum)
  else if msgType = msgTypeGetStatus then statusBody st fieldNum (st.dev.getAlarmStatus fieldNum)
  else []

def tcpSendData (st : Station) (fieldNum msgType : UInt8) : List UInt8 :=
  frame ([fieldNum, deviceTypeTension, msgType, resultOk] ++ dataBody st fieldNum msgType)

/-! ### Receiving -/

/-- The copy loop: what fits of each piece, until more than the buffer has been received. -/
def copyPbufs : Netbuf → List UInt8 → ℕ → List UInt8 × ℕ
  | [], buf, dataLen => (buf, dataLen)
  | q :: qs, buf, dataLen =>
      let buf := buf ++ q.payload.take (tcpServerRxBufsize - dataLen)
      let dataLen := dataLen + q.payload.length
      if tcpServerRxBufsize < dataLen then (buf, dataLen) else copyPbufs qs buf dataLen

/-- The outcome of `tcp_recv_data` on a received buffer. -/
inductive Received where
  | accepted (buf : List UInt8)
  | rejected (answer : List UInt8)
  deriving DecidableEq, Repr

/-- `tcp_recv_data` after `netconn_recv` has returned a buffer; `data_len - 2` is a `u32`. -/
def tcpRecvData (recvbuf : Netbuf) : Received :=
  let (buf, dataLen) := copyPbufs recvbuf [] 0
  let err := tcpSendErr (byteAt buf 2) (byteAt buf 4)
  if byteAt buf 0 ≠ msgHead then .rejected err
  else if (byteAt buf 1).toNat ≠ u32 ((dataLen : ℤ) - 2) then .rejected err
  else if byteAt buf 4 ≠ msgTypeSearchDevice ∧ byteAt buf 3 ≠ deviceTypeTension then .rejected err
  else .accepted buf

/-- One byte of the new address. -/
def setIp (j : Fin 4) (b : UInt8) (st : Station) : Station :=
  if st.ip j ≠ b then { st with ip := Function.update st.ip j b, ipChangeFlag := true } else st

/-- The effect of `MSG_TYPE_SET_PARAS`; the zone is looked up by its new number from then on. -/
def setParas (buf : List UInt8) (fieldNum : UInt8) (st : Station) : Station :=
  let newFieldNum := byteAt buf 5
  let st := st.onDev (Dev.modifyFieldNum fieldNum newFieldNum)
  let st := setIp 3 (byteAt buf 9) (setIp 2 (byteAt buf 8) (setIp 1 (byteAt buf 7)
    (setIp 0 (byteAt buf 6) st)))
  let st := st.onDev (Dev.modifyAlarmDelay newFieldNum (u16At buf 10))
  let st := st.onDev fun d => d.setAlarmSensitivity (d.getFieldIndex newFieldNum) (byteAt buf 12)
  let st := st.onDev (Dev.setAlmThrdUpDif (u16At buf 13))
  let st := st.onDev (Dev.setAlmThrdDwDif (u16At buf 15))
  let st := st.onDev (Dev.setTensionMaxRange (u16At buf 17))
  st.onDev (Dev.setBaseAutoCalibrateTime (u16At buf 19))

/-- The outcome of `parse_reply_data`: an error before anything is sent, a reset of the system, or an
    answer, whose `netconn_write` gives the result. -/
inductive Parsed where
  | refused
  | reset
  | reply (st : Station) (answer : List UInt8)

/-- `tcp_send_data` at the end of `parse_reply_data`. -/
def answer (fieldNum msgType : UInt8) (st : Station) : Parsed :=
  .reply st (tcpSendData st fieldNum msgType)

/-- `MSG_TYPE_SET_BUFANG`: arming and disarming wait for the end of a shutdown. -/
def setBufang (buf : List UInt8) (fieldNum msgType : UInt8) (st : Station) : Parsed :=
  let defenceStatus := byteAt buf 5
  if defenceStatus = defenceStatusBufang ∨ defenceStatus = defenceStatusChefang then
    answer fieldNum msgType
      (if st.dev.alarm.remoteShutdown then st
      else st.onDev (Dev.modifyBFFlag fieldNum defenceStatus))
  else if defenceStatus = defenceStatusPower then .reset
  else if defenceStatus = defenceStatusShutdown then answer fieldNum msgType (st.onDev Dev.shutdown)
  else answer fieldNum msgType st

def parseReplyData (buf : List UInt8) (st : Station) : Parsed :=
  let fieldNum := byteAt buf 2
  let msgType := byteAt buf 4
  if byteAt buf 0 ≠ msgHead then .refused
  else if msgType ≠ msgTypeSearchDevice ∧
      (fieldNum ≠ st.dev.para.fieldNum 0 ∧ fieldNum ≠ st.dev.para.fieldNum 1) then
    .reply st (tcpSendErr fieldNum msgType)
  else if msgType = msgTypeSetBufang then setBufang buf fieldNum msgType st
  else if msgType = msgTypeAlarmReset then
    answer fieldNum msgType (st.onDev (Dev.removeAlarmRL fieldNum))
  else if msgType = msgTypeSetParas then answer (byteAt buf 5) msgType (setParas buf fieldNum st)
  else answer fieldNum msgType st

/-! ### The received bytes -/

/-- At most 512 bytes are all copied; of more the first 512. -/
theorem copyPbufs_eq : ∀ (qs : Netbuf) (buf : List UInt8), buf.length ≤ tcpServerRxBufsize →
    (copyPbufs qs buf buf.length).1 = (buf ++ qs.bytes).take tcpServerRxBufsize ∧
    ((buf ++ qs.bytes).length ≤ tcpServerRxBufsize →
      (copyPbufs qs buf buf.length).2 = (buf ++ qs.bytes).length) ∧
    (tcpServerRxBufsize < (buf ++ qs.bytes).length →
      tcpServerRxBufsize < (copyPbufs qs buf buf.length).2 ∧
      (copyPbufs qs buf buf.length).2 < tcpServerRxBufsize + 0x10000)
  | [], buf, h => by
      have hnil : Netbuf.bytes [] = [] := rfl
      rw [copyPbufs, hnil, List.append_nil]
      exact ⟨(List.take_of_length_le h).symm, fun _ => rfl, fun hlt => by omega⟩
  | q :: qs, buf, h => by
      have hbytes : Netbuf.bytes (q :: qs) = q.payload ++ Netbuf.bytes qs := List.flatMap_cons
      have hlen := q.len_lt
      rw [copyPbufs, hbytes]
      by_cases hover : tcpServerRxBufsize < buf.length + q.payload.length
      · rw [if_pos hover]
        simp only [List.length_append]
        refine ⟨?_, fun hle => ?_, fun _ => ⟨hover, ?_⟩⟩
        · rw [List.take_append, List.take_of_length_le h, List.take_append_of_le_length (by omega)]
        · omega
        · omega
      · -- the piece fits, so the buffer goes on with its bytes
        have hfit : q.payload.take (tcpServerRxBufsize - buf.length) = q.payload :=
          List.take_of_length_le (by omega)
        have ih := copyPbufs_eq qs (buf ++ q.payload) (by rw [List.length_append]; omega)
        rw [List.length_append, List.append_assoc] at ih
        rw [if_neg hover, hfit]
        exact ih

/-- A request: the head, the length of what follows it and the body. -/
def Whole (m : List UInt8) : Prop :=
  2 ≤ m.length ∧ byteAt m 0 = msgHead ∧ (byteAt m 1).toNat + 2 = m.length

instance (m : List UInt8) : Decidable (Whole m) := by unfold Whole; infer_instance

theorem Whole.length_le {m : List UInt8} (h : Whole m) : m.length ≤ 257 := by
  have := (byteAt m 1).toNat_lt
  have := h.2.2
  omega

theorem Whole.ne_nil {m : List UInt8} (h : Whole m) : m ≠ [] := by
  rintro rfl
  exact absurd h.1 (by simp)

/-- The device type is asked for unless devices are searched. -/
def ForDevice (m : List UInt8) : Prop :=
  byteAt m 4 = msgTypeSearchDevice ∨ byteAt m 3 = deviceTypeTension

instance (m : List UInt8) : Decidable (ForDevice m) := by unfold ForDevice; infer_instance

theorem byteAt_take {m : List UInt8} {n i : ℕ} (h : i < n) : byteAt (m.take n) i = byteAt m i := by
  rw [byteAt, byteAt, List.getD_eq_getElem?_getD, List.getD_eq_getElem?_getD,
    List.getElem?_take_of_lt h]

/-- The length check, `data_len` being the length or, beyond the buffer, anything that does not fit the
    length byte. -/
theorem length_check {m : List UInt8} (hhead : byteAt m 0 = msgHead) {dataLen : ℕ}
    (hfits : m.length ≤ tcpServerRxBufsize → dataLen = m.length)
    (hover : tcpServerRxBufsize < m.length →
      tcpServerRxBufsize < dataLen ∧ dataLen < tcpServerRxBufsize + 0x10000) :
    (byteAt m 1).toNat = u32 ((dataLen : ℤ) - 2) ↔ Whole m := by
  have hbyte := (byteAt m 1).toNat_lt
  rw [Whole, u32]
  rw [tcpServerRxBufsize] at hfits hover
  constructor
  · intro h
    refine ⟨?_, hhead, ?_⟩ <;> omega
  · rintro ⟨h2, -, hlen⟩
    omega

/-- A buffer is accepted when it is exactly one request for the device; all others are answered with an
    error that repeats their zone and type. -/
theorem tcpRecvData_eq (recvbuf : Netbuf) : tcpRecvData recvbuf =
    if Whole recvbuf.bytes ∧ ForDevice recvbuf.bytes then .accepted recvbuf.bytes
    else .rejected (tcpSendErr (byteAt recvbuf.bytes 2) (byteAt recvbuf.bytes 4)) := by
  obtain ⟨hbuf, hfits, hover⟩ := copyPbufs_eq recvbuf [] (by simp)
  rw [List.nil_append, List.length_nil] at hbuf hfits hover
  have hat {i : ℕ} (hi : i < tcpServerRxBufsize) :
      byteAt (copyPbufs recvbuf [] 0).1 i = byteAt recvbuf.bytes i := by rw [hbuf, byteAt_take hi]
  simp only [tcpRecvData]
  rw [hat (by decide), hat (by decide), hat (by decide), hat (by decide), hat (by decide)]
  by_cases hhead : byteAt recvbuf.bytes 0 = msgHead
  · rw [if_neg (not_not.mpr hhead), ite_not, if_congr (length_check hhead hfits hover) rfl rfl]
    by_cases hw : Whole recvbuf.bytes
    · have hall : (copyPbufs recvbuf [] 0).1 = recvbuf.bytes := by
        rw [hbuf, List.take_of_length_le (by have := hw.length_le; rw [tcpServerRxBufsize]; omega)]
      have hdev : ForDevice recvbuf.bytes ↔ byteAt recvbuf.bytes 4 = msgTypeSearchDevice ∨
          byteAt recvbuf.bytes 3 = deviceTypeTension := Iff.rfl
      rw [if_pos hw, hall]
      by_cases hs : byteAt recvbuf.bytes 4 = msgTypeSearchDevice
      · rw [if_neg (by tauto), if_pos (by tauto)]
      · by_cases ht : byteAt recvbuf.bytes 3 = deviceTypeTension
        · rw [if_neg (by tauto), if_pos (by tauto)]
        · rw [if_pos (by tauto), if_neg (by tauto)]
    · rw [if_neg hw, if_neg (by tauto)]
  · rw [if_pos hhead, if_neg (by rw [Whole]; tauto)]

end Tcp

end VectorFence
