import VectorFence.Lcd.Editors
import VectorFence.Tcp.Paras
import VectorFence.Web.Control

/-! The three front ends on one device. A request over TCP, a request to `/control.cgi` and a key each
    change the same variables, through setters of their own:

        TCP   ──▶ modifyFieldNum, setAlarmSensitivity, … ──┐
        web   ──▶ assignments, WriteFieldParaToEEProm    ──┼──▶ field_num, alarm_delay, …, EEPROM
        panel ──▶ copies, setFieldNum, …                 ──┘

    A reset ends the run. -/

namespace VectorFence

/-- One value is changed in a pair of good ones. -/
theorem forall_update_iff {β : Type} {P : β → Prop} {f : Zone → β} (h : ∀ i, P (f i))
    (k : Zone) (v : β) :
    (∀ i, P (Function.update f k v i)) ↔ P v := by
  rw [Function.forall_update_iff f fun _ b => P b]
  exact and_iff_left fun i _ => h i

/-! ### What the setters leave alone -/

namespace Dev

open Eeprom FieldPara

variable {x : ℕ}

theorem storePara_mem (d : Dev) (hx : x < 0x60 ∨ 0x70 ≤ x) : d.storePara.mem x = d.mem x := by
  change at24cxxWrite (at24cxxWrite d.mem 0x60 _) 0x68 _ x = d.mem x
  rw [write_frame _ (by rw [length_zoneBytes]; omega) (by rw [length_zoneBytes]; omega),
    write_frame _ (by rw [length_zoneBytes]; omega) (by rw [length_zoneBytes]; omega)]

theorem storeAlmThrd_mem (d : Dev) (hx : x < 0x50 ∨ 0x54 ≤ x) : d.storeAlmThrd.mem x = d.mem x :=
  write_frame d.mem (a := 0x50) (by simp [u16Bytes]) (by simp [u16Bytes]; omega)

theorem setTensionMaxRange_mem (d : Dev) (v : UInt16) (hx : x < 0x5A ∨ 0x5C ≤ x) :
    (d.setTensionMaxRange v).mem x = d.mem x :=
  write_frame d.mem (a := 0x5A) (by simp [u16Bytes]) (by simp [u16Bytes]; omega)

theorem setBaseAutoCalibrateTime_mem (d : Dev) (v : UInt16) (hx : x < 0x5C ∨ 0x5E ≤ x) :
    (d.setBaseAutoCalibrateTime v).mem x = d.mem x :=
  write_frame d.mem (a := 0x5C) (by simp [u16Bytes]) (by simp [u16Bytes]; omega)

theorem storeControlPara_mem (d : Dev) (hx : x ≠ 0x54) : d.storeControlPara.mem x = d.mem x := by
  change at24cxxWriteOneByte d.mem 0x54 _ x = d.mem x
  rw [writeOneByte_apply _ (by norm_num), if_neg hx]

end Dev

/-! ### Requests -/

inductive Request where
  | tcp (recvbuf : Netbuf)
  | web (params : CgiParams)
  | key (e : Env) (pins : Fin 2 → Bool) (k : Key)

namespace Panel

open Tcp Web

def tcp (recvbuf : Netbuf) (p : Panel) : Panel :=
  match handle recvbuf p.station with
  | .refused => p
  | .reset => p.reset
  | .reply st _ => { p with station := st }

def web (params : CgiParams) (p : Panel) : Panel := p.onDev fun d => (controlCGIHandler params d).1

def step (p : Panel) (r : Request) : Panel :=
  if p.running then
    match r with
    | .tcp recvbuf => p.tcp recvbuf
    | .web params => p.web params
    | .key e pins k => p.turn e pins k
  else p

/-- A step of which the keys are followed for the zone parameters only. -/
def zoneStep (p : Panel) (r : Request) : Panel :=
  if p.running then
    match r with
    | .tcp recvbuf => p.tcp recvbuf
    | .web params => p.web params
    | .key e _ k => p.zoneTurn e k
  else p

/-- A new device after its first start, its parameters stored. -/
def firstStart : Panel where
  lcd := .powerOn
  temps := .powerOn
  station := Station.blank.onDev Dev.storePara
  running := true

/-- The request sets the parameters of a zone. -/
def SetsParas (recvbuf : Netbuf) (d : Dev) : Prop :=
  Whole recvbuf.bytes ∧ byteAt recvbuf.bytes 3 = deviceTypeTension ∧
    byteAt recvbuf.bytes 4 = msgTypeSetParas ∧
    (byteAt recvbuf.bytes 2 = d.para.fieldNum 0 ∨ byteAt recvbuf.bytes 2 = d.para.fieldNum 1)

/-- What any other request over TCP can do. -/
inductive TcpTurn (p : Panel) : Panel → Prop where
  | same : TcpTurn p p
  | reset : TcpTurn p p.reset
  | arm (f : Zone) (sw : Switch) (h : p.station.dev.alarm.remoteShutdown = false) :
      TcpTurn p (p.onDev (Dev.push f sw))
  | shutdown : TcpTurn p (p.onDev Dev.shutdown)
  | silence (f : Zone) : TcpTurn p (p.onDev (Dev.resetSiren f))

variable {recvbuf : Netbuf} {p : Panel}

theorem tcp_setParas (h : SetsParas recvbuf p.station.dev) : p.tcp recvbuf =
    { p with station := setParas recvbuf.bytes (byteAt recvbuf.bytes 2) p.station } := by
  obtain ⟨hwhole, hdev, htype, hzone⟩ := h
  rw [tcp, handle_setParas hwhole hdev hzone htype, answer]

/-- Arming and disarming are held up by a shutdown. -/
theorem setBufang_turn (buf : List UInt8) (fieldNum msgType : UInt8) :
    (∃ st ans, setBufang buf fieldNum msgType p.station = .reply st ans ∧
      TcpTurn p { p with station := st }) ∨
    setBufang buf fieldNum msgType p.station = .reset := by
  simp only [setBufang]
  split_ifs with hsw hoff hpower hshut
  · exact Or.inl ⟨_, _, rfl, .same⟩
  · refine Or.inl ⟨_, _, rfl, ?_⟩
    rw [Station.onDev, Dev.modifyBFFlag]
    rcases p.station.dev.zoneOf fieldNum with _ | f
    · exact .same
    · exact .arm f _ (by simpa using hoff)
  · exact Or.inr rfl
  · exact Or.inl ⟨_, _, rfl, .shutdown⟩
  · exact Or.inl ⟨_, _, rfl, .same⟩

theorem parse_turn {buf : List UInt8} (hbuf : byteAt buf 4 ≠ msgTypeSetParas ∨
      (byteAt buf 2 ≠ p.station.dev.para.fieldNum 0 ∧ byteAt buf 2 ≠ p.station.dev.para.fieldNum 1)) :
    (∃ st ans, parseReplyData buf p.station = .reply st ans ∧ TcpTurn p { p with station := st }) ∨
    parseReplyData buf p.station = .reset ∨ parseReplyData buf p.station = .refused := by
  simp only [parseReplyData]
  split_ifs with hhead hzone hbf hreset hparas
  · exact Or.inr (Or.inr rfl)
  · exact Or.inl ⟨_, _, rfl, .same⟩
  · rcases setBufang_turn (p := p) buf (byteAt buf 2) (byteAt buf 4) with h | h
    · exact Or.inl h
    · exact Or.inr (Or.inl h)
  · refine Or.inl ⟨_, _, rfl, ?_⟩
    rw [Station.onDev, Dev.removeAlarmRL]
    rcases p.station.dev.zoneOf (byteAt buf 2) with _ | f
    · exact .same
    · exact .silence f
  · -- a request of this type has a zone number that nobody has
    rcases hbuf with htype | hnum
    · exact absurd hparas htype
    · exact absurd ⟨by rw [hparas]; decide, hnum⟩ hzone
  · exact Or.inl ⟨_, _, rfl, .same⟩

theorem tcp_turn (h : ¬SetsParas recvbuf p.station.dev) : TcpTurn p (p.tcp recvbuf) := by
  rw [tcp, handle, tcpRecvData_eq]
  split_ifs with hw
  · have hbuf : byteAt recvbuf.bytes 4 ≠ msgTypeSetParas ∨
        (byteAt recvbuf.bytes 2 ≠ p.station.dev.para.fieldNum 0 ∧
          byteAt recvbuf.bytes 2 ≠ p.station.dev.para.fieldNum 1) := by
      by_contra hno
      push Not at hno
      obtain ⟨hwhole, hdev⟩ := hw
      refine h ⟨hwhole, ?_, hno.1, ?_⟩
      · rcases hdev with hs | hd
        · exact absurd (hno.1.symm.trans hs) (by decide)
        · exact hd
      · tauto
    rcases parse_turn hbuf with ⟨st, ans, hp, hturn⟩ | hp | hp
    · simp only [hp]
      exact hturn
    · simp only [hp]
      exact .reset
    · simp only [hp]
      exact .same
  · exact .same

end Panel

end VectorFence
