import VectorFence.Tcp.Message

/-! Changing the parameters of a zone over the network.

        5    6 … 9  10 11  12           13 14  15 16  17 18  19 20
        new  ip     delay  sensitivity  up     down   range  time

    The handler gives the zone its new number first and looks the zone up by that number for the
    rest, zone A first. `targetZone` is the zone the rest goes to: the addressed one unless zone A
    has the new number already. -/

namespace VectorFence

namespace Dev

variable {d : Dev} {n : UInt8} {i : Zone}

theorem zoneOf_eq_some_iff : d.zoneOf n = some i ↔
    d.para.fieldNum i = n ∧ (i = 1 → d.para.fieldNum 0 ≠ n) := by
  rw [zoneOf]
  rcases zone_cases i with rfl | rfl
  · by_cases h0 : d.para.fieldNum 0 = n
    · simp [h0]
    · rw [if_neg h0]
      split_ifs <;> simp [h0]
  · by_cases h0 : d.para.fieldNum 0 = n
    · simp [h0]
    · rw [if_neg h0]
      split_ifs with h1 <;> simp [h0, h1]

/-- A number that a zone has is found where the index function says. -/
theorem zoneOf_eq_index (h : d.para.fieldNum i = n) : d.zoneOf n = some (d.getFieldIndex n) := by
  rw [zoneOf_eq_some_iff, getFieldIndex]
  by_cases h0 : d.para.fieldNum 0 = n
  · rw [if_pos h0]
    exact ⟨h0, fun h10 => absurd h10 (by decide)⟩
  · rcases zone_cases i with rfl | rfl
    · exact absurd h h0
    · rw [if_neg h0]
      exact ⟨h, fun _ => h0⟩

theorem exists_zoneOf (h : n = d.para.fieldNum 0 ∨ n = d.para.fieldNum 1) :
    ∃ i, d.zoneOf n = some i := by
  rcases h with h | h
  · exact ⟨_, zoneOf_eq_index h.symm⟩
  · exact ⟨_, zoneOf_eq_index h.symm⟩

end Dev

namespace Tcp

open FieldPara

variable {st : Station} {buf buf' : List UInt8} {f n : UInt8} {i : Zone}

/-- The zone that has the number `n` after zone `i` was given it. -/
def targetZone (st : Station) (i : Zone) (n : UInt8) : Zone :=
  if Function.update st.dev.para.fieldNum i n 0 = n then 0 else 1

@[simp] theorem setIp_dev (j : Fin 4) (b : UInt8) (st : Station) : (setIp j b st).dev = st.dev := by
  rw [setIp]
  split_ifs <;> rfl

/-- The handler as setters of the addressed zone and of the zone found by the new number. -/
theorem setParas_dev (h : st.dev.zoneOf f = some i) : (setParas buf f st).dev =
    Dev.setBaseAutoCalibrateTime (u16At buf 19) (Dev.setTensionMaxRange (u16At buf 17)
      (Dev.setAlmThrdDwDif (u16At buf 15) (Dev.setAlmThrdUpDif (u16At buf 13)
        (Dev.setAlarmSensitivity (targetZone st i (byteAt buf 5)) (byteAt buf 12)
          (Dev.setAlarmDelay (targetZone st i (byteAt buf 5)) (u16At buf 10)
            (Dev.setFieldNum i (byteAt buf 5) st.dev)))))) := by
  have hmod : st.dev.modifyFieldNum f (byteAt buf 5) = st.dev.setFieldNum i (byteAt buf 5) := by
    rw [Dev.modifyFieldNum, h]
    rfl
  have hnum : (st.dev.setFieldNum i (byteAt buf 5)).para.fieldNum i = byteAt buf 5 :=
    Function.update_self ..
  have hdelay := Dev.zoneOf_eq_index hnum
  simp only [setParas, Station.onDev, setIp_dev, hmod, Dev.modifyAlarmDelay, hdelay]
  rfl

/-- The zone parameters after the handler. -/
theorem setParas_para (buf : List UInt8) (h : st.dev.zoneOf f = some i) : (setParas buf f st).dev.para =
    { st.dev.para with
      fieldNum := Function.update st.dev.para.fieldNum i (byteAt buf 5)
      alarmDelay := Function.update st.dev.para.alarmDelay (targetZone st i (byteAt buf 5))
        (u16At buf 10)
      alarmSensitivity := Function.update st.dev.para.alarmSensitivity
        (targetZone st i (byteAt buf 5)) (byteAt buf 12) } := by
  rw [setParas_dev h]
  rfl

theorem setParas_fieldNum (buf : List UInt8) (h : st.dev.zoneOf f = some i) :
    (setParas buf f st).dev.para.fieldNum i = byteAt buf 5 := by
  rw [setParas_para buf h]
  exact Function.update_self ..

/-- The zone with the new number. -/
theorem getFieldIndex_setParas (buf : List UInt8) (h : st.dev.zoneOf f = some i) :
    (setParas buf f st).dev.getFieldIndex (byteAt buf 5) = targetZone st i (byteAt buf 5) := by
  rw [Dev.getFieldIndex, setParas_para buf h, targetZone]

/-- The other parameters after the handler. -/
theorem setParas_alarm (h : st.dev.zoneOf f = some i) : (setParas buf f st).dev.alarm =
    { st.dev.alarm with
      alarmThresholdUpDif := u16At buf 13
      alarmThresholdDownDif := u16At buf 15 } := by
  rw [setParas_dev h]
  rfl

theorem setParas_adc (h : st.dev.zoneOf f = some i) : (setParas buf f st).dev.adc =
    { st.dev.adc with
      tensionMaxRange := u16At buf 17
      baseAutoCalibrateTime := u16At buf 19 } := by
  rw [setParas_dev h]
  rfl

/-- A request of this type for a zone that exists is carried out. -/
theorem parse_setParas (hhead : byteAt buf 0 = msgHead) (htype : byteAt buf 4 = msgTypeSetParas)
    (hzone : byteAt buf 2 = st.dev.para.fieldNum 0 ∨ byteAt buf 2 = st.dev.para.fieldNum 1) :
    parseReplyData buf st = answer (byteAt buf 5) msgTypeSetParas (setParas buf (byteAt buf 2) st) := by
  simp only [parseReplyData]
  rw [htype, if_neg (not_not.mpr hhead), if_neg (by tauto), if_neg (by decide), if_neg (by decide),
    if_pos rfl]

/-! ### The addressed zone -/

/-- What the request asks for: the addressed zone gets the values sent, the other one keeps its own, and
    the numbers of the two zones still differ. -/
def OnlyZone (buf : List UInt8) (k : Zone) (st st' : Station) : Prop :=
  st'.dev.para.fieldNum k = byteAt buf 5 ∧ st'.dev.para.alarmDelay k = u16At buf 10 ∧
  st'.dev.para.alarmSensitivity k = byteAt buf 12 ∧
  st'.dev.para.fieldNum (1 - k) = st.dev.para.fieldNum (1 - k) ∧
  st'.dev.para.alarmDelay (1 - k) = st.dev.para.alarmDelay (1 - k) ∧
  st'.dev.para.alarmSensitivity (1 - k) = st.dev.para.alarmSensitivity (1 - k) ∧
  st'.dev.para.fieldNum 0 ≠ st'.dev.para.fieldNum 1

/-- A number the other zone does not have finds the addressed zone again. -/
theorem targetZone_eq (hn : n ≠ st.dev.para.fieldNum (1 - i)) : targetZone st i n = i := by
  rw [targetZone]
  rcases zone_cases i with rfl | rfl
  · rw [if_pos (Function.update_self ..)]
  · rw [if_neg]
    rw [Function.update_of_ne (by decide)]
    exact Ne.symm hn

/-- The request touches only the addressed zone exactly when the new number is not the other zone's. -/
theorem setParas_onlyZone_iff (buf : List UInt8) (st : Station) (k : Zone)
    (hne : st.dev.para.fieldNum 0 ≠ st.dev.para.fieldNum 1) (hhead : byteAt buf 0 = msgHead)
    (hzone : byteAt buf 2 = st.dev.para.fieldNum k) (htype : byteAt buf 4 = msgTypeSetParas) :
    ∃ st' ack, parseReplyData buf st = .reply st' ack ∧
      (OnlyZone buf k st st' ↔ byteAt buf 5 ≠ st.dev.para.fieldNum (1 - k)) := by
  have hk : st.dev.zoneOf (byteAt buf 2) = some k := by
    rw [Dev.zoneOf_eq_some_iff, hzone]
    exact ⟨rfl, fun h1 => by rw [h1]; exact hne⟩
  have hexists : byteAt buf 2 = st.dev.para.fieldNum 0 ∨ byteAt buf 2 = st.dev.para.fieldNum 1 := by
    rcases zone_cases k with rfl | rfl
    · exact Or.inl hzone
    · exact Or.inr hzone
  have hpeer : 1 - k ≠ k := by rcases zone_cases k with rfl | rfl <;> decide
  refine ⟨_, _, parse_setParas hhead htype hexists, ?_⟩
  rw [OnlyZone, setParas_para buf hk]
  simp only [Function.update_self, Function.update_of_ne hpeer]
  constructor
  · rintro ⟨-, -, -, -, -, -, hdiff⟩ heq
    rcases zone_cases k with rfl | rfl
    · exact hdiff heq
    · exact hdiff heq.symm
  · intro hn
    rw [targetZone_eq hn]
    simp only [Function.update_self, Function.update_of_ne hpeer, true_and]
    rcases zone_cases k with rfl | rfl
    · exact hn
    · exact Ne.symm hn

/-- Zones 1 and 2. -/
def twoZones : Station :=
  Station.blank.onDev fun d => { d with para := { d.para with fieldNum := ![1, 2] } }

/-- A request for the zone `f` with a new number and a delay in seconds, all else as on a new device. -/
def paraRequest (f n delay : UInt8) : List UInt8 :=
  [0x94, 19, f, 1, 4, n, 192, 168, 0, 30, 0, delay, 4, 0, 50, 0, 50, 0, 200, 0, 30]

theorem setParas_onlyZone_renumbered : ∃ st' ack,
    parseReplyData (paraRequest 2 7 60) twoZones = .reply st' ack ∧
      OnlyZone (paraRequest 2 7 60) 1 twoZones st' := by
  obtain ⟨st', ack, hp, ho⟩ := setParas_onlyZone_iff (paraRequest 2 7 60) twoZones 1 (by decide)
    (by decide) (by decide) (by decide)
  exact ⟨st', ack, hp, ho.mpr (by decide)⟩

/-- Zone B is given the number of zone A, and the delay meant for it goes to zone A. -/
theorem not_setParas_onlyZone : ¬ ∀ (buf : List UInt8) (st : Station) (k : Zone),
    st.dev.para.fieldNum 0 ≠ st.dev.para.fieldNum 1 → Whole buf → buf.length = 21 →
    byteAt buf 3 = deviceTypeTension → byteAt buf 2 = st.dev.para.fieldNum k →
    byteAt buf 4 = msgTypeSetParas →
    ∃ st' ack, parseReplyData buf st = .reply st' ack ∧ OnlyZone buf k st st' := by
  intro h
  obtain ⟨st', ack, hp, -, -, -, -, hdelay, -⟩ := h (paraRequest 2 1 60) twoZones 1 (by decide)
    (by decide) rfl rfl rfl rfl
  rw [parse_setParas rfl rfl (Or.inr rfl), answer, Parsed.reply.injEq] at hp
  rw [← hp.1] at hdelay
  revert hdelay
  decide +kernel

/-! ### Reading back -/

theorem tcpRecvData_accepted {recvbuf : Netbuf} (h : tcpRecvData recvbuf = .accepted buf) :
    buf = recvbuf.bytes ∧ Whole buf ∧ ForDevice buf := by
  rw [tcpRecvData_eq] at h
  split_ifs at h with hw
  rw [Received.accepted.injEq] at h
  rw [← h]
  exact ⟨rfl, hw⟩

/-- An answer is a well-formed message. -/
theorem whole_frame {body : List UInt8} (h : body.length < 256) : Whole (frame body) := by
  refine ⟨?_, rfl, ?_⟩
  · rw [frame, List.length_cons, List.length_cons]
    omega
  · change (UInt8.ofNat body.length).toNat + 2 = _
    rw [frame, List.length_cons, List.length_cons, UInt8.toNat_ofNat']
    omega

/-- The two bytes of a number that was put together from two bytes. -/
theorem u16Bytes_bytesU16 (hi lo : UInt8) : u16Bytes (bytesU16 hi lo) = [hi, lo] := by
  obtain ⟨h0, h1⟩ := toNat_u16Bytes (bytesU16 hi lo)
  have hhi := hi.toNat_lt
  have hlo := lo.toNat_lt
  rw [toNat_bytesU16] at h0 h1
  rw [u16Bytes, List.cons.injEq, List.cons.injEq]
  refine ⟨UInt8.toNat_inj.mp ?_, UInt8.toNat_inj.mp ?_, rfl⟩
  · rw [h0]; omega
  · rw [h1]; omega

/-- The status of a zone right after the request: the bytes 10 to 20 of the request are its bytes 2 to
    12. -/
theorem statusBody_setParas (buf : List UInt8) (h : st.dev.zoneOf f = some i) (alarmStatus : UInt8) :
    ∃ bfFlag peer sw1 sw2, statusBody (setParas buf f st) (byteAt buf 5) alarmStatus =
      [bfFlag, alarmStatus, byteAt buf 10, byteAt buf 11, byteAt buf 12, byteAt buf 13, byteAt buf 14,
        byteAt buf 15, byteAt buf 16, byteAt buf 17, byteAt buf 18, byteAt buf 19, byteAt buf 20,
        peer, sw1, sw2] := by
  have hp := setParas_para buf h
  have hnum := setParas_fieldNum buf h
  have hindex := getFieldIndex_setParas buf h
  have hdelay : (setParas buf f st).dev.getAlarmDelay (byteAt buf 5) = u16At buf 10 := by
    rw [Dev.getAlarmDelay, Dev.zoneOf_eq_index hnum, hindex, hp]
    exact Function.update_self ..
  have hsens : (setParas buf f st).dev.para.alarmSensitivity
      ((setParas buf f st).dev.getFieldIndex (byteAt buf 5)) = byteAt buf 12 := by
    rw [hindex, hp]
    exact Function.update_self ..
  rw [statusBody, hdelay, hsens, setParas_alarm h, setParas_adc h]
  simp only [u16At, u16Bytes_bytesU16]
  exact ⟨_, _, _, _, rfl⟩

theorem parse_getStatus {req : List UInt8} (hhead : byteAt req 0 = msgHead)
    (hget : byteAt req 4 = msgTypeGetStatus ∨ byteAt req 4 = msgTypeGetDelayedAlarmStatus)
    (hzone : st.dev.para.fieldNum i = byteAt req 2) :
    parseReplyData req st = answer (byteAt req 2) (byteAt req 4) st := by
  have hexists : ¬(byteAt req 2 ≠ st.dev.para.fieldNum 0 ∧ byteAt req 2 ≠ st.dev.para.fieldNum 1) := by
    rintro ⟨h0, h1⟩
    rcases zone_cases i with rfl | rfl
    · exact h0 hzone.symm
    · exact h1 hzone.symm
  simp only [parseReplyData]
  rw [if_neg (not_not.mpr hhead), if_neg fun h => hexists h.2]
  rcases hget with hget | hget <;> rw [hget, if_neg (by decide), if_neg (by decide), if_neg (by decide)]

/-- A status request for the new number is answered with a well-formed message that carries the bytes of
    the request that set them, in the same order. -/
theorem status_reads_back (recvbuf recvbuf' : Netbuf) (st : Station) (buf req : List UInt8)
    (hrecv : tcpRecvData recvbuf = .accepted buf) (htype : byteAt buf 4 = msgTypeSetParas)
    (hzone : byteAt buf 2 = st.dev.para.fieldNum 0 ∨ byteAt buf 2 = st.dev.para.fieldNum 1)
    (hreq : tcpRecvData recvbuf' = .accepted req) (hnum : byteAt req 2 = byteAt buf 5)
    (hget : byteAt req 4 = msgTypeGetStatus ∨ byteAt req 4 = msgTypeGetDelayedAlarmStatus) :
    ∃ st' ack ans, parseReplyData buf st = .reply st' ack ∧ parseReplyData req st' = .reply st' ans ∧
      Whole ans ∧ ∀ i < 11, byteAt ans (8 + i) = byteAt buf (10 + i) := by
  obtain ⟨-, ⟨-, hhead, -⟩, -⟩ := tcpRecvData_accepted hrecv
  obtain ⟨-, ⟨-, hhead', -⟩, -⟩ := tcpRecvData_accepted hreq
  obtain ⟨i, hi⟩ := Dev.exists_zoneOf hzone
  have hasked : (setParas buf (byteAt buf 2) st).dev.para.fieldNum i = byteAt req 2 := by
    rw [setParas_fieldNum buf hi, hnum]
  -- both requests report the same body, up to the alarm word
  obtain ⟨alarmStatus, hbody⟩ : ∃ alarmStatus,
      dataBody (setParas buf (byteAt buf 2) st) (byteAt req 2) (byteAt req 4) =
        statusBody (setParas buf (byteAt buf 2) st) (byteAt buf 5) alarmStatus := by
    rw [hnum, dataBody]
    rcases hget with hget | hget
    · rw [hget, if_neg (by decide), if_neg (by decide), if_pos rfl]
      exact ⟨_, rfl⟩
    · rw [hget, if_neg (by decide), if_pos rfl]
      exact ⟨_, rfl⟩
  obtain ⟨bfFlag, peer, sw1, sw2, hstatus⟩ := statusBody_setParas buf hi alarmStatus
  refine ⟨_, _, _, parse_setParas hhead htype hzone, parse_getStatus hhead' hget hasked, ?_, ?_⟩
  · rw [tcpSendData, hbody, hstatus]
    exact whole_frame (by simp)
  · rw [tcpSendData, hbody, hstatus]
    intro j hj
    interval_cases j <;> rfl

/-- A status request for the zone `f`. -/
def statusRequest (f : UInt8) : List UInt8 := [0x94, 3, f, 1, 6]

theorem status_reads_back_twoZones : ∃ st' ack ans,
    parseReplyData (paraRequest 2 1 60) twoZones = .reply st' ack ∧
    parseReplyData (statusRequest 1) st' = .reply st' ans ∧ Whole ans ∧
    ∀ i < 11, byteAt ans (8 + i) = byteAt (paraRequest 2 1 60) (10 + i) :=
  status_reads_back (Netbuf.single (paraRequest 2 1 60) (by decide))
    (Netbuf.single (statusRequest 1) (by decide)) twoZones _ _ (by decide) (by decide) (by decide)
    (by decide) (by decide) (by decide)

/-! ### Requests that are too short -/

theorem byteAt_append_zeros (m : List UInt8) (n i : ℕ) :
    byteAt (m ++ List.replicate n 0) i = byteAt m i := by
  rw [byteAt, byteAt, List.getD_eq_getElem?_getD, List.getD_eq_getElem?_getD]
  rcases lt_or_ge i m.length with hi | hi
  · rw [List.getElem?_append_left hi]
  · rw [List.getElem?_append_right hi, List.getElem?_eq_none hi, List.getElem?_replicate]
    split_ifs <;> rfl

/-- The handler sees only the bytes. -/
theorem setParas_congr (h : ∀ i, byteAt buf i = byteAt buf' i) (f : UInt8) (st : Station) :
    setParas buf f st = setParas buf' f st := by
  simp only [setParas, u16At, h]

/-- What the server does with one received buffer. -/
def handle (recvbuf : Netbuf) (st : Station) : Parsed :=
  match tcpRecvData recvbuf with
  | .accepted buf => parseReplyData buf st
  | .rejected answer => .reply st answer

/-- The request is answered with an error and nothing has changed. -/
def Refused (recvbuf : Netbuf) (st : Station) : Prop :=
  ∃ answer, handle recvbuf st = .reply st answer ∧ byteAt answer 5 = resultError

/-- A request of this type for a zone that exists is carried out, whatever its length. -/
theorem handle_setParas {recvbuf : Netbuf} (hwhole : Whole recvbuf.bytes)
    (hdev : byteAt recvbuf.bytes 3 = deviceTypeTension)
    (hzone : byteAt recvbuf.bytes 2 = st.dev.para.fieldNum 0 ∨
      byteAt recvbuf.bytes 2 = st.dev.para.fieldNum 1)
    (htype : byteAt recvbuf.bytes 4 = msgTypeSetParas) :
    handle recvbuf st = answer (byteAt recvbuf.bytes 5) msgTypeSetParas
      (setParas recvbuf.bytes (byteAt recvbuf.bytes 2) st) := by
  rw [handle, tcpRecvData_eq, if_pos ⟨hwhole, Or.inr hdev⟩]
  exact parse_setParas hwhole.2.1 htype hzone

/-- A request that lacks some of the 21 bytes the handler reads is never refused: it is carried out with
    zeros for what is missing and acknowledged. -/
theorem short_setParas_not_refused (recvbuf : Netbuf) (st : Station)
    (hwhole : Whole recvbuf.bytes) (hdev : byteAt recvbuf.bytes 3 = deviceTypeTension)
    (hzone : byteAt recvbuf.bytes 2 = st.dev.para.fieldNum 0 ∨
      byteAt recvbuf.bytes 2 = st.dev.para.fieldNum 1)
    (htype : byteAt recvbuf.bytes 4 = msgTypeSetParas) :
    ¬Refused recvbuf st ∧
    handle recvbuf st = answer (byteAt recvbuf.bytes 5) msgTypeSetParas
      (setParas (recvbuf.bytes ++ List.replicate (21 - recvbuf.bytes.length) 0)
        (byteAt recvbuf.bytes 2) st) := by
  rw [Refused, handle_setParas hwhole hdev hzone htype]
  constructor
  · rintro ⟨ans, hans, herr⟩
    have hok (st : Station) (f t : UInt8) : byteAt (tcpSendData st f t) 5 = resultOk := rfl
    rw [answer, Parsed.reply.injEq] at hans
    rw [← hans.2, hok] at herr
    exact absurd herr (by decide)
  · rw [setParas_congr (fun i => (byteAt_append_zeros recvbuf.bytes _ i).symm)]

/-- Zone 1 is to be changed, and nothing is said how. -/
def bareRequest : Netbuf := Netbuf.single [0x94, 3, 1, 1, 4] (by decide)

theorem short_setParas_bare : ¬Refused bareRequest twoZones ∧
    handle bareRequest twoZones = answer 0 msgTypeSetParas
      (setParas ([0x94, 3, 1, 1, 4] ++ List.replicate 16 0) 1 twoZones) :=
  short_setParas_not_refused bareRequest twoZones (by decide) (by decide) (by decide) (by decide)

/-- Its zone loses number, delay and sensitivity, and the device its address. -/
theorem not_short_setParas_refused : ¬ ∀ (recvbuf : Netbuf) (st : Station),
    Whole recvbuf.bytes → byteAt recvbuf.bytes 3 = deviceTypeTension →
    (byteAt recvbuf.bytes 2 = st.dev.para.fieldNum 0 ∨
      byteAt recvbuf.bytes 2 = st.dev.para.fieldNum 1) →
    byteAt recvbuf.bytes 4 = msgTypeSetParas → recvbuf.bytes.length < 21 → Refused recvbuf st := by
  intro h
  obtain ⟨ans, hans, -⟩ := h bareRequest twoZones (by decide) (by decide) (by decide) (by decide)
    (by decide)
  rw [handle_setParas (by decide) (by decide) (by decide) (by decide), answer,
    Parsed.reply.injEq] at hans
  have hdelay := congrArg (fun st : Station => st.dev.para.alarmDelay 0) hans.1
  revert hdelay
  decide +kernel

end Tcp

end VectorFence
