import VectorFence.Log.PowerLoss
import VectorFence.Restart
import VectorFence.Tcp.Server

/-! A loss of power after the reply to a request that sets the parameters of a zone. The handler
    stores all but the address, which `lwip_reset_netif_ipaddr` stores byte by byte when the
    connection has ended:

        parse_reply_data ── OK ──▶ inner loop ── error ──▶ outer loop ── lwip_reset_netif_ipaddr
        zones, thresholds,                                               mac ip netmask gateway
        range, time stored                                               stored, then a reset

    The next start takes some contents for erased. A value that looks erased is lost then, and a
    delay of zone A that does takes the other parameters of both zones with it. -/

namespace VectorFence

open Eeprom Tcp

/-! ### The server with the rest of `lwipdev` -/

structure NetServer where
  server : Server
  mac : Fin 6 → UInt8
  netmask : Fin 4 → UInt8
  gateway : Fin 4 → UInt8

namespace NetServer

abbrev station (s : NetServer) : Station := s.server.station

def mem (s : NetServer) : Eeprom := s.station.dev.mem

def lwipdev (s : NetServer) : LwipDev := ⟨s.mac, s.station.ip, s.netmask, s.gateway⟩

/-- The outer loop is about to call `lwip_reset_netif_ipaddr`. -/
def Storing (s : NetServer) : Prop := s.server.pc = .accepting ∧ s.station.ipChangeFlag = true

instance (s : NetServer) : Decidable s.Storing := by unfold Storing; infer_instance

/-- One turn of `tcp_server_thread`. -/
def turn (s : NetServer) (io : Io) : NetServer :=
  let server := s.server.turn io
  if s.Storing then
    { s with server := { server with station := server.station.onDev fun d =>
        { d with mem := LwipDev.writeNetParasToEEProm d.mem s.lwipdev } } }
  else { s with server := server }

/-- The one-byte writes of `WriteNetParasToEEProm`. -/
def netWrites (l : LwipDev) : List (ℕ × UInt8) :=
  Log.bufferWrites netParaAddr
    (List.ofFn l.mac ++ List.ofFn l.ip ++ List.ofFn l.netmask ++ List.ofFn l.gateway)

/-- What is in the EEPROM when the power is lost behind `k` byte writes of the next turn; the other
    turns have no moment between their first write and their last that is of interest here. -/
def memAt (s : NetServer) (k : ℕ) : Eeprom :=
  if s.Storing then burn s.mem ((netWrites s.lwipdev).take k) else s.mem

end NetServer

/-! ### What a start makes of the contents -/

namespace Area

variable (hw : Host.Hardware) (m : Eeprom)

/-- One of the bytes of the delay looks erased. -/
def Blank (delay : UInt16) : Prop := delay.toNat / 256 = 255 ∨ delay.toNat % 256 = 255

instance (delay : UInt16) : Decidable (Blank delay) := by unfold Blank; infer_instance

theorem inUse_zones : zones.inUse hw m =
    if Blank ((zones.read m).alarmDelay 0) then FieldPara.powerOn else zones.read m := by
  have hdelay : (zones.read m).alarmDelay 0 =
    FieldPara.bytesU16 (at24cxxReadOneByte m (fieldParaAddr + 1))
      (at24cxxReadOneByte m (fieldParaAddr + 2)) := rfl
  have hlo := (at24cxxReadOneByte m (fieldParaAddr + 2)).toNat_lt
  have hhi := (at24cxxReadOneByte m (fieldParaAddr + 1)).toNat_lt
  have hff (b : UInt8) : b = 0xFF ↔ b.toNat = 255 := UInt8.toNat_inj.symm
  have herased : initZones.erased m = true ↔ Blank ((zones.read m).alarmDelay 0) := by
    rw [hdelay, Blank, FieldPara.toNat_bytesU16]
    simp only [initZones, Bool.or_eq_true, beq_iff_eq, hff]
    omega
  have hrun : zones.inUse hw m = if initZones.erased m then FieldPara.powerOn else zones.read m := by
    rw [inUse, init, Layout.Init.run]
    split_ifs
    · rfl
    · rfl
  rw [hrun, if_congr herased rfl rfl]

theorem inUse_threshold : threshold.inUse hw m =
    (almThrd (threshold.read m).1, almThrd (threshold.read m).2) := by
  rw [inUse, init, initThreshold, run_initOf]
  split_ifs with h
  · rfl
  · simp only [Bool.or_eq_true, beq_iff_eq, not_or] at h
    simp only [almThrd, if_neg h.1, if_neg h.2]
    rfl

theorem inUse_range : range.inUse hw m = if range.read m = 0xffff then
    tensionMaxRangeDef else range.read m := by
  have hrun : range.inUse hw m =
      (if range.read m == 0xffff then (range.write tensionMaxRangeDef m, tensionMaxRangeDef)
        else (m, range.read m)).2 := rfl
  rw [hrun]
  split_ifs with h0 h1 h1
  · rfl
  · exact absurd (beq_iff_eq.mp h0) h1
  · exact absurd (beq_iff_eq.mpr h1) h0
  · rfl

theorem inUse_time : time.inUse hw m = if time.read m = 0xffff then 30 else time.read m := by
  have hrun : time.inUse hw m =
      (if time.read m == 0xffff then (time.write 30 m, 30) else (m, time.read m)).2 := rfl
  rw [hrun]
  split_ifs with h0 h1 h1
  · rfl
  · exact absurd (beq_iff_eq.mp h0) h1
  · exact absurd (beq_iff_eq.mpr h1) h0
  · rfl

theorem ip_fixNet (sn0 : UInt32) (v : LwipDev) : (fixNet sn0 v).ip =
    if v.ip = ![0xFF, 0xFF, 0xFF, 0xFF] then ![192, 168, 0, 30] else v.ip := by
  have hip : (if v.oui = ![0x55, 0x39, 0x72] then v.setOui LwipDev.macDef else v).ip = v.ip := by
    split_ifs
    · rfl
    · rfl
  rw [fixNet, hip]
  by_cases h : v.ip = ![0xFF, 0xFF, 0xFF, 0xFF]
  · rw [if_pos h, if_pos h]
    rfl
  · rw [if_neg h, if_neg h, hip]

theorem inUse_net_ip : (net.inUse hw m).ip =
    if (net.read m).ip = ![0xFF, 0xFF, 0xFF, 0xFF] then ![192, 168, 0, 30] else (net.read m).ip := by
  rw [inUse, init, initNet, run_initOf]
  split_ifs with h0 h1 h1
  · rw [ip_fixNet, if_pos h1]
  · rw [ip_fixNet, if_neg h1]
  · simp [h1] at h0
  · rfl

end Area

/-! ### What is in force -/

namespace Tcp

/-- The address a request carries. -/
def sentIp (buf : List UInt8) : Fin 4 → UInt8 :=
  ![byteAt buf 6, byteAt buf 7, byteAt buf 8, byteAt buf 9]

/-- The values of a request are in force, those of the zone for the zone found by the new number. -/
structure Carries (buf : List UInt8) (h : Host) : Prop where
  zone : ∃ i, h.dev.zoneOf (byteAt buf 5) = some i ∧ h.dev.para.alarmDelay i = u16At buf 10 ∧
    h.dev.para.alarmSensitivity i = byteAt buf 12
  up : h.dev.alarm.alarmThresholdUpDif = u16At buf 13
  down : h.dev.alarm.alarmThresholdDownDif = u16At buf 15
  range : h.dev.adc.tensionMaxRange = u16At buf 17
  time : h.dev.adc.baseAutoCalibrateTime = u16At buf 19
  ip : h.lwipdev.ip = sentIp buf

/-- The address a start finds, given the bytes in the EEPROM. -/
def startIp (ip : Fin 4 → UInt8) : Fin 4 → UInt8 :=
  if ip = ![0xFF, 0xFF, 0xFF, 0xFF] then ![192, 168, 0, 30] else ip

/-- The delay of zone A after a request, which is zone A's if it has the old number or the new one. -/
def delayA (buf : List UInt8) (st : Station) : UInt16 :=
  if st.dev.para.fieldNum 0 = byteAt buf 2 ∨ st.dev.para.fieldNum 0 = byteAt buf 5 then u16At buf 10
  else st.dev.para.alarmDelay 0

/-- No number that a request stores looks erased, or what it sets for the zone is the default. -/
structure Storable (buf : List UInt8) (st : Station) : Prop where
  zone : ¬Area.Blank (delayA buf st) ∨ byteAt buf 5 = 0 ∧ u16At buf 10 = 30 ∧ byteAt buf 12 = 4
  up : u16At buf 13 ≠ 0xffff
  down : u16At buf 15 ≠ 0xffff
  range : u16At buf 17 ≠ 0xffff
  time : u16At buf 19 ≠ 0xffff

section Written

variable {st : Station} {buf : List UInt8} {f : UInt8} {i : Zone}

/-- The stores of the handler. -/
theorem mem_setParas (buf : List UInt8) (h : st.dev.zoneOf f = some i) :
    ∃ p p' up, (setParas buf f st).dev.mem =
    Area.layout.run st.dev.mem [⟨.zones, p⟩, ⟨.zones, p'⟩, ⟨.zones, (setParas buf f st).dev.para⟩,
      ⟨.threshold, up⟩, ⟨.threshold, (u16At buf 13, u16At buf 15)⟩, ⟨.range, u16At buf 17⟩,
      ⟨.time, u16At buf 19⟩] := by
  have hpara := setParas_para buf h
  rw [hpara, setParas_dev h, Dev.mem_setBaseAutoCalibrateTime, Dev.mem_setTensionMaxRange,
    Dev.setAlmThrdDwDif,
    Dev.mem_storeAlmThrd, Dev.setAlmThrdUpDif, Dev.mem_storeAlmThrd, Dev.setAlarmSensitivity,
    Dev.mem_storePara,
    Dev.assignAlarmSensitivity, Dev.setAlarmDelay, Dev.mem_storePara, Dev.assignAlarmDelay,
    Dev.setFieldNum,
    Dev.mem_storePara]
  exact ⟨_, _, _, rfl⟩

/-- The parameters of the request, read back. -/
theorem read_setParas (buf : List UInt8) (h : st.dev.zoneOf f = some i) :
    Area.zones.read (setParas buf f st).dev.mem = (setParas buf f st).dev.para ∧
      Area.threshold.read (setParas buf f st).dev.mem = (u16At buf 13, u16At buf 15) ∧
      Area.range.read (setParas buf f st).dev.mem = u16At buf 17 ∧
      Area.time.read (setParas buf f st).dev.mem = u16At buf 19 ∧
      Area.net.read (setParas buf f st).dev.mem = Area.net.read st.dev.mem := by
  obtain ⟨p, p', up, hmem⟩ := mem_setParas buf h
  rw [hmem]
  exact ⟨Area.layout.read_run .zones _ _, Area.layout.read_run .threshold _ _,
    Area.layout.read_run .range _ _,
    Area.layout.read_run .time _ _, Area.layout.read_run .net _ _⟩

theorem targetZone_eq_zero_iff (h : st.dev.zoneOf f = some i) (n : UInt8) :
    targetZone st i n = 0 ↔ st.dev.para.fieldNum 0 = f ∨ st.dev.para.fieldNum 0 = n := by
  obtain ⟨hnum, hfirst⟩ := Dev.zoneOf_eq_some_iff.mp h
  rw [targetZone]
  rcases zone_cases i with rfl | rfl
  · rw [if_pos (Function.update_self ..)]
    exact iff_of_true rfl (Or.inl hnum)
  · rw [Function.update_of_ne (by decide), or_iff_right (hfirst rfl)]
    split_ifs with h0
    · exact iff_of_true rfl h0
    · exact iff_of_false (by decide) h0

theorem alarmDelay_zero_setParas (h : st.dev.zoneOf (byteAt buf 2) = some i) :
    (setParas buf (byteAt buf 2) st).dev.para.alarmDelay 0 = delayA buf st := by
  rw [setParas_para buf h, delayA]
  by_cases h0 : targetZone st i (byteAt buf 5) = 0
  · simp only [if_pos ((targetZone_eq_zero_iff h _).mp h0), h0, Function.update_self]
  · simp only [if_neg (mt (targetZone_eq_zero_iff h _).mpr h0), Function.update_of_ne (Ne.symm h0)]

theorem ip_setIp (j : Fin 4) (b : UInt8) (st : Station) :
    (setIp j b st).ip = Function.update st.ip j b := by
  rw [setIp]
  split_ifs with h
  · rfl
  · rw [← not_not.mp h, Function.update_eq_self]

theorem ip_setParas (buf : List UInt8) (f : UInt8) (st : Station) :
    (setParas buf f st).ip = sentIp buf := by
  simp only [setParas, Station.onDev, ip_setIp]
  funext j
  fin_cases j <;> rfl

/-- The zone found by the new number is the one that was given the values. -/
theorem zone_setParas (buf : List UInt8) (h : st.dev.zoneOf f = some i) : ∃ j,
    (setParas buf f st).dev.zoneOf (byteAt buf 5) = some j ∧
      (setParas buf f st).dev.para.alarmDelay j = u16At buf 10 ∧
      (setParas buf f st).dev.para.alarmSensitivity j = byteAt buf 12 := by
  refine ⟨targetZone st i (byteAt buf 5), ?_, ?_, ?_⟩
  · rw [Dev.zoneOf_eq_index (setParas_fieldNum buf h), getFieldIndex_setParas buf h]
  · rw [setParas_para buf h]
    exact Function.update_self ..
  · rw [setParas_para buf h]
    exact Function.update_self ..

/-- The first zone with a number is found from the parameters of the zones. -/
theorem zoneOf_congr {d d' : Dev} (h : d'.para = d.para) (n : UInt8) : d'.zoneOf n = d.zoneOf n := by
  rw [Dev.zoneOf, Dev.zoneOf, h]

/-- The zones of a device that takes the parameters of the zones for erased. -/
theorem zone_powerOn_iff {d : Dev} (h : d.para = .powerOn) : (∃ i, d.zoneOf (byteAt buf 5) = some i ∧
      d.para.alarmDelay i = u16At buf 10 ∧ d.para.alarmSensitivity i = byteAt buf 12) ↔
    byteAt buf 5 = 0 ∧ u16At buf 10 = 30 ∧ byteAt buf 12 = 4 := by
  have hzone (i : Zone) : d.zoneOf (byteAt buf 5) = some i ↔ 0 = byteAt buf 5 ∧
    (i = 1 → 0 ≠ byteAt buf 5) := by
    rw [Dev.zoneOf_eq_some_iff, h]
    rfl
  simp only [hzone]
  rw [h]
  constructor
  · rintro ⟨i, ⟨hn, -⟩, hdelay, hsens⟩
    exact ⟨hn.symm, hdelay.symm, hsens.symm⟩
  · rintro ⟨hn, hdelay, hsens⟩
    exact ⟨0, ⟨hn.symm, fun h10 => absurd h10 (by decide)⟩, hdelay.symm, hsens.symm⟩

/-- What a start finds of a request whose values, the address apart, are in the EEPROM. -/
theorem carries_restart_iff (hw : Host.Hardware) {m : Eeprom}
    (h : st.dev.zoneOf (byteAt buf 2) = some i)
    (hm : ∀ a : Area, a = .zones ∨ a = .threshold ∨ a = .range ∨ a = .time →
      a.read m = a.read (setParas buf (byteAt buf 2) st).dev.mem) :
    Carries buf (Host.restart hw m) ↔ Storable buf st ∧ startIp (Area.net.read m).ip = sentIp buf := by
  have hvars := (Host.restart_boot hw m).2
  generalize Host.restart hw m = host at hvars ⊢
  obtain ⟨hz, ht, hr, htime, -⟩ := read_setParas buf h
  have hpara : host.dev.para =
      if Area.Blank (delayA buf st) then .powerOn else (setParas buf (byteAt buf 2) st).dev.para := by
    have hval := Option.some.inj (hvars .zones (by decide))
    rw [← alarmDelay_zero_setParas h, ← hz, ← hm .zones (by simp), ← Area.inUse_zones hw]
    exact hval
  have hthrd := Option.some.inj (hvars .threshold (by decide))
  have hrange := Option.some.inj (hvars .range (by decide))
  have htime' := Option.some.inj (hvars .time (by decide))
  have hnet : host.lwipdev.ip = startIp (Area.net.read m).ip :=
    (congrArg LwipDev.ip (Option.some.inj (hvars .net (by decide)))).trans (Area.inUse_net_ip hw m)
  rw [Area.inUse_threshold, hm .threshold (by simp), ht] at hthrd
  rw [Area.inUse_range, hm .range (by simp), hr] at hrange
  rw [Area.inUse_time, hm .time (by simp), htime] at htime'
  have hdefault {v d w : UInt16} (hw : w = if v = 0xffff then d else v) (hd : d ≠ 0xffff) :
      w = v ↔ v ≠ 0xffff := by
    rw [hw]
    split_ifs with hv
    · rw [hv]
      exact iff_of_false hd (not_not.mpr rfl)
    · exact iff_of_true rfl hv
  have hup := hdefault (congrArg Prod.fst hthrd) (by decide)
  have hdown := hdefault (congrArg Prod.snd hthrd) (by decide)
  have hrange' := hdefault hrange (by decide)
  have htime'' := hdefault htime' (by decide)
  have hzone : (∃ j, host.dev.zoneOf (byteAt buf 5) = some j ∧
      host.dev.para.alarmDelay j = u16At buf 10 ∧
      host.dev.para.alarmSensitivity j = byteAt buf 12) ↔
      ¬Area.Blank (delayA buf st) ∨ byteAt buf 5 = 0 ∧ u16At buf 10 = 30 ∧ byteAt buf 12 = 4 := by
    by_cases hblank : Area.Blank (delayA buf st)
    · rw [if_pos hblank] at hpara
      rw [zone_powerOn_iff hpara, or_iff_right (not_not.mpr hblank)]
    · rw [if_neg hblank] at hpara
      obtain ⟨j, hj⟩ := zone_setParas buf h
      refine iff_of_true ⟨j, ?_⟩ (Or.inl hblank)
      rw [zoneOf_congr hpara, hpara]
      exact hj
  constructor
  · rintro ⟨h0, h1, h2, h3, h4, h5⟩
    exact ⟨⟨hzone.mp h0, hup.mp h1, hdown.mp h2, hrange'.mp h3, htime''.mp h4⟩, hnet.symm.trans h5⟩
  · rintro ⟨⟨h0, h1, h2, h3, h4⟩, h5⟩
    exact ⟨hzone.mpr h0, hup.mpr h1, hdown.mpr h2, hrange'.mpr h3, htime''.mpr h4, hnet.trans h5⟩

end Written

end Tcp

/-! ### One turn -/

/-- The address stays, and of the memory all but the control byte. -/
structure Station.KeepsIp (st st' : Station) : Prop where
  ip : st'.ip = st.ip
  mem : ∀ x, x ≠ 0x54 → st'.dev.mem x = st.dev.mem x

theorem Station.KeepsIp.refl (st : Station) : st.KeepsIp st := ⟨rfl, fun _ _ => rfl⟩

theorem Panel.TcpTurn.keepsIp {p q : Panel} (h : TcpTurn p q) : p.station.KeepsIp q.station := by
  cases h with
  | same | reset | shutdown | silence => exact ⟨rfl, fun _ _ => rfl⟩
  | arm f sw h =>
    refine ⟨rfl, fun x hx => ?_⟩
    exact (writeOneByte_apply _ (by decide) _ x).trans (if_neg hx)

namespace Server

/-- What the server does with a buffer is what is done with a request. -/
theorem station_serve (c : ℕ) (recvbuf : Netbuf) (written : Bool) (s : Server) (p : Panel)
    (hp : p.station = s.station) : (serve c recvbuf written s).station = (p.tcp recvbuf).station := by
  rw [serve, Panel.tcp, handle, hp]
  cases hrecv : tcpRecvData recvbuf with
  | rejected err => simp only [emit]
  | accepted buf =>
    simp only
    cases hparse : parseReplyData buf s.station with
    | refused => exact hp.symm
    | reset => exact hp.symm
    | reply st ans => rfl

end Server

namespace NetServer

/-- Another request that sets parameters is received. -/
def SetsAgain (s : NetServer) (io : Io) : Prop :=
  ∃ c recvbuf, s.server.pc = .serving c ∧ io.received = some recvbuf ∧
    Panel.SetsParas recvbuf s.station.dev

theorem keepsIp_turn {s : NetServer} {io : Io} (h : ¬s.SetsAgain io) :
    s.station.KeepsIp (s.server.turn io).station := by
  cases hpc : s.server.pc with
  | stopped =>
    rw [Server.turn, hpc]
    exact .refl _
  | accepting =>
    simp only [Server.turn, hpc]
    split_ifs
    · exact .refl _
    · exact .refl _
    · exact .refl _
  | serving c =>
    simp only [Server.turn, hpc]
    cases hio : io.received with
    | none => exact .refl _
    | some recvbuf =>
      let p : Panel := { Panel.firstStart with station := s.station }
      have hset : ¬Panel.SetsParas recvbuf p.station.dev := fun hset => h ⟨c, recvbuf, hpc, hio, hset⟩
      have hserve := Server.station_serve c recvbuf io.written
        (s.server.emit [.setTimeout c, .recv c]) p rfl
      simp only
      rw [hserve]
      exact (Panel.tcp_turn hset).keepsIp

/-- A turn stores the network parameters or leaves them alone. -/
theorem mem_turn {s : NetServer} {io : Io} (h : ¬s.SetsAgain io) {x : ℕ} (hx : x ≠ 0x54) :
    (s.turn io).mem x = if s.Storing then
    LwipDev.writeNetParasToEEProm s.mem s.lwipdev x else s.mem x := by
  have hkeep := keepsIp_turn h
  rw [turn]
  split_ifs with hs
  · have hstation : (s.server.turn io).station = s.station := by
      rw [Server.turn, hs.1]
      simp only [hs.2, if_true]
    simp only [mem, Station.onDev, hstation]
  · exact hkeep.mem x hx

theorem lwipdev_turn {s : NetServer} {io : Io} (h : ¬s.SetsAgain io) :
    (s.turn io).lwipdev = s.lwipdev := by
  have hkeep := keepsIp_turn h
  rw [turn]
  split_ifs
  · simp only [lwipdev, station, Station.onDev, hkeep.ip]
  · simp only [lwipdev, station, hkeep.ip]

/-! ### Runs -/

/-- By the power loss behind `k` byte writes of the turn after a run, byte `x` of the network
    parameters has been stored. -/
def StoredBy (s : NetServer) (ios : List Io) (k x : ℕ) : Prop :=
  (∃ p ∈ Run.steps turn s ios, p.1.Storing) ∨ (ios.foldl turn s).Storing ∧ x < k

theorem writeNet_congr (m m' : Eeprom) (l : LwipDev) {x : ℕ} (hx : x < 18) :
    LwipDev.writeNetParasToEEProm m' l x = LwipDev.writeNetParasToEEProm m l x :=
  Area.write_owned (g := .net) (if_pos hx) l

/-- The memory after a run without another request that sets parameters. -/
theorem mem_run : ∀ (ios : List Io) (s : NetServer), (∀ p ∈ Run.steps turn s ios, ¬p.1.SetsAgain p.2) →
    (ios.foldl turn s).lwipdev = s.lwipdev ∧
      (∀ x, 18 ≤ x → x ≠ 0x54 → (ios.foldl turn s).mem x = s.mem x) ∧
      ((∃ p ∈ Run.steps turn s ios, p.1.Storing) →
        ∀ x < 18, (ios.foldl turn s).mem x = LwipDev.writeNetParasToEEProm s.mem s.lwipdev x) ∧
      ((¬∃ p ∈ Run.steps turn s ios, p.1.Storing) → ∀ x < 18, (ios.foldl turn s).mem x = s.mem x)
  | [], s, _ => by
      refine ⟨rfl, fun _ _ _ => rfl, ?_, fun _ _ _ => rfl⟩
      rintro ⟨p, hp, -⟩
      simp [Run.steps] at hp
  | io :: ios, s, h => by
      rw [Run.steps, List.forall_mem_cons] at h
      obtain ⟨hset, hrest⟩ := h
      obtain ⟨hl, hfar, hyes, hno⟩ := mem_run ios (s.turn io) hrest
      have hturn {x : ℕ} (hx : x ≠ 0x54) := mem_turn hset hx
      have hlturn := lwipdev_turn hset
      refine ⟨hl.trans hlturn, fun x hx hx' => ?_, fun hstore x hx => ?_, fun hstore x hx => ?_⟩
      · refine (hfar x hx hx').trans ((hturn hx').trans ?_)
        split_ifs
        · exact LwipDev.writeNetParas_frame _ _ hx
        · rfl
      · rw [List.foldl_cons]
        by_cases hlater : ∃ p ∈ Run.steps turn (s.turn io) ios, p.1.Storing
        · rw [hyes hlater x hx, hlturn]
          exact writeNet_congr _ _ _ hx
        · rw [hno hlater x hx, hturn (by omega), if_pos]
          obtain ⟨p, hp, hs⟩ := hstore
          rcases List.mem_cons.mp hp with rfl | hp
          · exact hs
          · exact absurd ⟨p, hp, hs⟩ hlater
      · have hs : ¬s.Storing := fun hs => hstore ⟨(s, io), List.mem_cons_self .., hs⟩
        have hlater : ¬∃ p ∈ Run.steps turn (s.turn io) ios, p.1.Storing := by
          rintro ⟨p, hp, hs⟩
          exact hstore ⟨p, List.mem_cons_of_mem _ hp, hs⟩
        rw [List.foldl_cons, hno hlater x hx, hturn (by omega), if_neg hs]

theorem write_append (buf buf' : List UInt8) (m : Eeprom) (a : ℕ) :
    at24cxxWrite m a (buf ++ buf') = at24cxxWrite (at24cxxWrite m a buf) (a + buf.length) buf' := by
  induction buf generalizing m a with
  | nil => rfl
  | cons b buf ih =>
    rw [List.cons_append, at24cxxWrite, ih, at24cxxWrite, List.length_cons]
    congr 1
    omega

/-- The bytes of the network parameters, in the order in which they are stored. -/
theorem writeNetParas_bytes (m : Eeprom) (l : LwipDev) : LwipDev.writeNetParasToEEProm m l =
    at24cxxWrite m netParaAddr
      (List.ofFn l.mac ++ List.ofFn l.ip ++ List.ofFn l.netmask ++ List.ofFn l.gateway) := by
  rw [write_append, write_append, write_append, LwipDev.writeNetParasToEEProm]
  simp only [List.length_append, List.length_ofFn]

/-- A part of the network parameters has been stored. -/
theorem burn_netWrites (m : Eeprom) (l : LwipDev) (k x : ℕ) : burn m ((netWrites l).take k) x =
    if x < k then LwipDev.writeNetParasToEEProm m l x else m x := by
  have hlen : (List.ofFn l.mac ++ List.ofFn l.ip ++ List.ofFn l.netmask ++
    List.ofFn l.gateway).length = 18 := by
    simp only [List.length_append, List.length_ofFn]
  rw [netWrites, Log.take_bufferWrites, Log.burn_bufferWrites, writeNetParas_bytes]
  generalize List.ofFn l.mac ++ List.ofFn l.ip ++ List.ofFn l.netmask ++ List.ofFn l.gateway = buf
    at hlen
  have hz : netParaAddr = 0 := rfl
  rw [hz, write_apply _ _ _ (by rw [List.length_take]; omega), write_apply _ _ _ (by omega),
    List.length_take]
  split_ifs with h0 h1 h2 h1 h2
  · rw [List.getD_eq_getElem?_getD, List.getElem?_take_of_lt (by omega), ← List.getD_eq_getElem?_getD]
  all_goals first | omega | rfl

/-- What is in the EEPROM when the power is lost. -/
theorem memAt_run {s : NetServer} {ios : List Io}
    (h : ∀ p ∈ Run.steps turn s ios, ¬p.1.SetsAgain p.2) (k : ℕ) :
    (∀ x, 18 ≤ x → x ≠ 0x54 → (ios.foldl turn s).memAt k x = s.mem x) ∧
      ∀ x < 18, (s.StoredBy ios k x → (ios.foldl turn s).memAt k x =
          LwipDev.writeNetParasToEEProm s.mem s.lwipdev x) ∧
        (¬s.StoredBy ios k x → (ios.foldl turn s).memAt k x = s.mem x) := by
  obtain ⟨hl, hfar, hyes, hno⟩ := mem_run ios s h
  have hmemAt (x : ℕ) : (ios.foldl turn s).memAt k x =
      if (ios.foldl turn s).Storing ∧ x < k then
        LwipDev.writeNetParasToEEProm (ios.foldl turn s).mem s.lwipdev x
      else (ios.foldl turn s).mem x := by
    rw [memAt, hl]
    by_cases hs : (ios.foldl turn s).Storing
    · simp only [hs, if_true, burn_netWrites, true_and]
    · simp only [hs, if_false, false_and]
  refine ⟨fun x hx hx' => ?_, fun x hx => ⟨fun hstored => ?_, fun hstored => ?_⟩⟩
  · rw [hmemAt]
    split_ifs
    · rw [LwipDev.writeNetParas_frame _ _ hx, hfar x hx hx']
    · exact hfar x hx hx'
  · rw [hmemAt]
    split_ifs with hs
    · exact writeNet_congr _ _ _ hx
    · exact hyes (hstored.resolve_right hs) x hx
  · rw [StoredBy, not_or] at hstored
    rw [hmemAt, if_neg hstored.2, hno hstored.1 x hx]

/-- The address in force after a power loss: what was sent, if all of it has been stored or was
    there before and it is not the erased pattern; or the default, if the pattern is still there. -/
def IpLasts (old sent : Fin 4 → UInt8) (stored : Fin 4 → Prop) : Prop :=
  sent ≠ ![0xFF, 0xFF, 0xFF, 0xFF] ∧ (∀ i, stored i ∨ old i = sent i) ∨
    sent = ![192, 168, 0, 30] ∧ ∀ i, ¬stored i ∧ old i = 0xFF

theorem startIp_iff {old sent ip : Fin 4 → UInt8} {stored : Fin 4 → Prop}
    (hyes : ∀ i, stored i → ip i = sent i)
    (hno : ∀ i, ¬stored i → ip i = old i) : startIp ip = sent ↔ IpLasts old sent stored := by
  have hff : (![0xFF, 0xFF, 0xFF, 0xFF] : Fin 4 → UInt8) = fun _ => 0xFF := by
    funext i
    fin_cases i <;> rfl
  have hdefault : ∀ i, (![192, 168, 0, 30] : Fin 4 → UInt8) i ≠ 0xFF := by decide
  have hsent (h : ∀ i, stored i ∨ old i = sent i) : ip = sent := by
    funext i
    by_cases hi : stored i
    · exact hyes i hi
    · exact (hno i hi).trans ((h i).resolve_left hi)
  rw [startIp, IpLasts, hff]
  split_ifs with h
  · constructor
    · rintro rfl
      refine Or.inr ⟨rfl, fun i => ?_⟩
      have hi : ¬stored i := fun hi => hdefault i ((hyes i hi).symm.trans (congrFun h i))
      exact ⟨hi, (hno i hi).symm.trans (congrFun h i)⟩
    · rintro (⟨hne, hall⟩ | ⟨rfl, -⟩)
      · exact absurd ((hsent hall).symm.trans h) hne
      · rfl
  · constructor
    · rintro rfl
      refine Or.inl ⟨h, fun i => ?_⟩
      by_cases hi : stored i
      · exact Or.inl hi
      · exact Or.inr (hno i hi).symm
    · rintro (⟨-, hall⟩ | ⟨-, hall⟩)
      · exact hsent hall
      · exact absurd (funext fun i => (hno i (hall i).1).trans (hall i).2) h

theorem not_storing {s : NetServer} {c : ℕ} (hpc : s.server.pc = .serving c) : ¬s.Storing := by
  rintro ⟨hacc, -⟩
  rw [hpc] at hacc
  cases hacc

/-- The turn that carries the request out and writes the reply. -/
theorem turn_setParas {s : NetServer} {c : ℕ} {recvbuf : Netbuf} (accepts : Bool)
    (hpc : s.server.pc = .serving c)
    (hset : Panel.SetsParas recvbuf s.station.dev) :
    (s.turn ⟨accepts, some recvbuf, true⟩).station =
        setParas recvbuf.bytes (byteAt recvbuf.bytes 2) s.station := by
  obtain ⟨hwhole, hdev, htype, hzone⟩ := hset
  let p : Panel := { Panel.firstStart with station := s.station }
  have hserve := Server.station_serve c recvbuf true (s.server.emit [.setTimeout c, .recv c]) p rfl
  rw [turn, if_neg (not_storing hpc)]
  simp only [station, Server.turn, hpc]
  rw [hserve, Panel.tcp_setParas ⟨hwhole, hdev, htype, hzone⟩]

/-- A start after a request that sets the parameters of a zone and a run without another one. -/
theorem carries_iff (hw : Host.Hardware) (s : NetServer) (c : ℕ) (recvbuf : Netbuf) (accepts : Bool)
    (hpc : s.server.pc = .serving c) (hset : Panel.SetsParas recvbuf s.station.dev)
    (ios : List Io) (k : ℕ)
    (hlater : ∀ p ∈ Run.steps turn (s.turn ⟨accepts, some recvbuf, true⟩) ios, ¬p.1.SetsAgain p.2) :
    Carries recvbuf.bytes (Host.restart hw
        ((ios.foldl turn (s.turn ⟨accepts, some recvbuf, true⟩)).memAt k)) ↔
      Storable recvbuf.bytes s.station ∧
        IpLasts (LwipDev.readNetParasFromEEProm s.mem).ip (sentIp recvbuf.bytes)
          fun i => (s.turn ⟨accepts, some recvbuf, true⟩).StoredBy ios k (6 + i) := by
  obtain ⟨i, hi⟩ := Dev.exists_zoneOf hset.2.2.2
  have hstation := turn_setParas accepts hpc hset
  generalize s.turn ⟨accepts, some recvbuf, true⟩ = s' at hlater hstation
  obtain ⟨hfar, hnear⟩ := memAt_run hlater k
  generalize (ios.foldl turn s').memAt k = m at hfar hnear
  have hmem : s'.mem = (setParas recvbuf.bytes (byteAt recvbuf.bytes 2) s.station).dev.mem := by
    rw [mem, hstation]
  have hip : s'.lwipdev.ip = sentIp recvbuf.bytes := by
    rw [lwipdev, hstation, ip_setParas]
  obtain ⟨-, -, -, -, hnet⟩ := read_setParas recvbuf.bytes hi
  have hread (m : Eeprom) (j : Fin 4) : (Area.net.read m).ip j = m (6 + j) := by
    have hj := j.isLt
    exact (readOneByte_eq _ (by rw [netParaAddr]; omega)).trans (congrArg m (by rw [netParaAddr]))
  rw [carries_restart_iff hw hi]
  · refine and_congr_right fun _ => startIp_iff (fun j hj => ?_) fun j hj => ?_
    · have hlt := j.isLt
      have hback : (Area.net.read (LwipDev.writeNetParasToEEProm s'.mem s'.lwipdev)).ip j =
        s'.lwipdev.ip j :=
        congrArg (fun l : LwipDev => l.ip j) (LwipDev.readNetParas_writeNetParas s'.mem s'.lwipdev)
      rw [hread, (hnear (6 + j) (by omega)).1 hj, ← hip, ← hback, hread]
    · have hlt := j.isLt
      have hold : (LwipDev.readNetParasFromEEProm s.mem).ip j = (Area.net.read s'.mem).ip j := by
        rw [hmem, hnet]
        rfl
      rw [hread, (hnear (6 + j) (by omega)).2 hj, hold, hread]
  · intro a ha
    rw [← hmem]
    refine Area.read_owner fun x hx => ?_
    obtain ⟨h0, h1⟩ := Area.owner_inside hx
    rcases ha with rfl | rfl | rfl | rfl
    all_goals
      simp only [Area.start, Area.len, fieldParaAddr, almThrdAddr, tensionMaxRangeAddr,
        baseAutoCalibrateTimeAddr] at h0 h1
      exact hfar x (by omega) (by omega)

/-- The reply to the request says that all is well. -/
theorem reply_setParas {s : NetServer} {c : ℕ} {recvbuf : Netbuf} (accepts : Bool)
    (hpc : s.server.pc = .serving c)
    (hset : Panel.SetsParas recvbuf s.station.dev) : ∃ ans, byteAt ans 5 = resultOk ∧
      (s.turn ⟨accepts, some recvbuf, true⟩).server.trace =
        s.server.trace ++ [.setTimeout c, .recv c, .write c ans] := by
  obtain ⟨hwhole, hdev, htype, hzone⟩ := hset
  have hrecv : tcpRecvData recvbuf = .accepted recvbuf.bytes := by
    rw [tcpRecvData_eq, if_pos ⟨hwhole, Or.inr hdev⟩]
  refine ⟨tcpSendData (setParas recvbuf.bytes (byteAt recvbuf.bytes 2) s.station)
    (byteAt recvbuf.bytes 5)
    msgTypeSetParas, rfl, ?_⟩
  rw [turn, if_neg (not_storing hpc)]
  simp only [Server.turn, hpc, Server.serve, hrecv, Server.emit]
  rw [parse_setParas hwhole.2.1 htype hzone, answer]
  simp

/-- A request that sets the parameters of a zone is answered with OK. When the power is lost at any
    later moment, a start finds all its values exactly if nothing in it looks erased and the address
    has been stored. -/
theorem durable_iff (hw : Host.Hardware) (s : NetServer) (c : ℕ) (recvbuf : Netbuf) (accepts : Bool)
    (hpc : s.server.pc = .serving c) (hset : Panel.SetsParas recvbuf s.station.dev)
    (ios : List Io) (k : ℕ)
    (hlater : ∀ p ∈ Run.steps turn (s.turn ⟨accepts, some recvbuf, true⟩) ios, ¬p.1.SetsAgain p.2) :
    (∃ ans, byteAt ans 5 = resultOk ∧ (s.turn ⟨accepts, some recvbuf, true⟩).server.trace =
      s.server.trace ++ [.setTimeout c, .recv c, .write c ans]) ∧
    (Carries recvbuf.bytes (Host.restart hw
        ((ios.foldl turn (s.turn ⟨accepts, some recvbuf, true⟩)).memAt k)) ↔
      Storable recvbuf.bytes s.station ∧
        IpLasts (LwipDev.readNetParasFromEEProm s.mem).ip (sentIp recvbuf.bytes)
          fun i => (s.turn ⟨accepts, some recvbuf, true⟩).StoredBy ios k (6 + i)) :=
  ⟨reply_setParas accepts hpc hset, carries_iff hw s c recvbuf accepts hpc hset ios k hlater⟩

/-- A connection to a device after its first start. -/
def connected : NetServer where
  server := { Server.start Host.firstStart.panel.station with pc := .serving 0, connections := 1 }
  mac := Host.firstStart.mac
  netmask := Host.firstStart.netmask
  gateway := Host.firstStart.gateway

/-- The device with two zones and switch inputs that are open. -/
def twoZoneHardware : Host.Hardware := ⟨fun _ => false, false, 0⟩

/-- A request with the values of a new device but for the last byte of the address. -/
def addressRequest (b : UInt8) : Netbuf :=
  Netbuf.single [0x94, 19, 0, 1, 4, 0, 192, 168, 0, b, 0, 30, 4, 0, 50, 0, 50, 0, 200, 0, 30]
    (by simp only [List.length_cons, List.length_nil]; norm_num)

theorem setsParas_connected (b : UInt8) : Panel.SetsParas (addressRequest b) connected.station.dev :=
  ⟨⟨by simp [addressRequest, Netbuf.bytes, Netbuf.single], rfl, rfl⟩, rfl, rfl, Or.inl rfl⟩

theorem readNet_connected : LwipDev.readNetParasFromEEProm connected.mem = Host.firstStart.lwipdev :=
  LwipDev.readNetParas_writeNetParas _ _

theorem durable_same_address : Carries (addressRequest 30).bytes (Host.restart twoZoneHardware
    ((connected.turn ⟨true, some (addressRequest 30), true⟩).memAt 0)) := by
  refine (durable_iff twoZoneHardware connected 0 (addressRequest 30) true rfl
    (setsParas_connected 30) [] 0
    (by simp [Run.steps])).2.mpr ⟨⟨?_, ?_, ?_, ?_, ?_⟩, Or.inl ⟨?_, fun i => Or.inr ?_⟩⟩
  · exact Or.inr (by decide)
  · decide
  · decide
  · decide
  · decide
  · decide
  · rw [readNet_connected]
    fin_cases i <;> rfl

/-- The power is lost while the connection is open, and with it a new address. -/
theorem not_durable : ¬ ∀ (hw : Host.Hardware) (s : NetServer) (c : ℕ) (recvbuf : Netbuf)
    (accepts : Bool),
    s.server.pc = .serving c → Panel.SetsParas recvbuf s.station.dev → recvbuf.bytes.length = 21 →
    ∀ (ios : List Io) (k : ℕ),
      (∀ p ∈ Run.steps turn (s.turn ⟨accepts, some recvbuf, true⟩) ios, ¬p.1.SetsAgain p.2) →
      Carries recvbuf.bytes (Host.restart hw
        ((ios.foldl turn (s.turn ⟨accepts, some recvbuf, true⟩)).memAt k)) := by
  intro h
  have hcarries := h twoZoneHardware connected 0 (addressRequest 31) true rfl
    (setsParas_connected 31) rfl [] 0
    (by simp [Run.steps])
  rw [carries_iff twoZoneHardware connected 0 (addressRequest 31) true rfl (setsParas_connected 31) [] 0
    (by simp [Run.steps]), readNet_connected] at hcarries
  obtain ⟨-, ⟨-, hall⟩ | ⟨hsent, -⟩⟩ := hcarries
  · rcases hall 3 with (⟨p, hp, -⟩ | ⟨-, hlt⟩) | hold
    · simp [Run.steps] at hp
    · exact absurd hlt (Nat.not_lt_zero _)
    · exact absurd hold (by decide)
  · exact absurd (congrFun hsent 3) (by decide)

end NetServer

end VectorFence
