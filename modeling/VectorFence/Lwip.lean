import VectorFence.Requests

/-! The network parameters: `lwipdev` of `lwip_comm.c` and its copy at the beginning of the EEPROM.

        0     6    10        14        18
        mac │ ip │ netmask │ gateway │

    A new value is stored by `lwip_reset_netif_ipaddr`, which resets the system, so that it is in
    force after the next start. `Host` is the panel with the rest of `lwipdev` and with the texts of
    the three address editors; `remoteip` and `dhcpstatus` are left out. -/

namespace VectorFence

@[ext]
structure LwipDev where
  mac : Fin 6 → UInt8
  ip : Fin 4 → UInt8
  netmask : Fin 4 → UInt8
  gateway : Fin 4 → UInt8

def netParaAddr : ℕ := 0x0000

namespace LwipDev

open Eeprom

/-- `WriteNetParasToEEProm()`. -/
def writeNetParasToEEProm (m : Eeprom) (l : LwipDev) : Eeprom :=
  let m := at24cxxWrite m netParaAddr (List.ofFn l.mac)
  let m := at24cxxWrite m (netParaAddr + 6) (List.ofFn l.ip)
  let m := at24cxxWrite m (netParaAddr + 10) (List.ofFn l.netmask)
  at24cxxWrite m (netParaAddr + 14) (List.ofFn l.gateway)

/-- `ReadNetParasFromEEProm()`. -/
def readNetParasFromEEProm (m : Eeprom) : LwipDev where
  mac i := at24cxxReadOneByte m (netParaAddr + i)
  ip i := at24cxxReadOneByte m (netParaAddr + 6 + i)
  netmask i := at24cxxReadOneByte m (netParaAddr + 10 + i)
  gateway i := at24cxxReadOneByte m (netParaAddr + 14 + i)

/-- A byte of an array that was written, or one of those around it. -/
theorem write_ofFn (m : Eeprom) {n : ℕ} (v : Fin n → UInt8) {a x : ℕ} (ha : a + n ≤ 0x10000) :
    at24cxxWrite m a (List.ofFn v) x =
      if h : a ≤ x ∧ x < a + n then v ⟨x - a, by omega⟩ else m x := by
  rw [write_apply _ _ _ (by rw [List.length_ofFn]; exact ha), List.length_ofFn]
  split_ifs with h
  · rw [List.getD_eq_getElem?_getD, List.getElem?_ofFn, dif_pos (by omega), Option.getD_some]
  · rfl

theorem writeNetParas_apply (m : Eeprom) (l : LwipDev) (x : ℕ) : writeNetParasToEEProm m l x =
    if h : 14 ≤ x ∧ x < 18 then l.gateway ⟨x - 14, by omega⟩
    else if h : 10 ≤ x ∧ x < 14 then l.netmask ⟨x - 10, by omega⟩
    else if h : 6 ≤ x ∧ x < 10 then l.ip ⟨x - 6, by omega⟩
    else if h : x < 6 then l.mac ⟨x, h⟩
    else m x := by
  simp only [writeNetParasToEEProm, netParaAddr]
  rw [write_ofFn _ _ (by norm_num), write_ofFn _ _ (by norm_num), write_ofFn _ _ (by norm_num),
    write_ofFn _ _ (by norm_num)]
  simp

/-- The network parameters are the only thing that is written. -/
theorem writeNetParas_frame (m : Eeprom) (l : LwipDev) {x : ℕ} (hx : 18 ≤ x) :
    writeNetParasToEEProm m l x = m x := by
  rw [writeNetParas_apply, dif_neg (by omega), dif_neg (by omega), dif_neg (by omega),
    dif_neg (by omega)]

theorem readNetParas_writeNetParas (m : Eeprom) (l : LwipDev) :
    readNetParasFromEEProm (writeNetParasToEEProm m l) = l := by
  refine LwipDev.ext (funext fun i => ?_) (funext fun i => ?_) (funext fun i => ?_) (funext fun i => ?_)
  all_goals
    have hi := i.isLt
    simp only [readNetParasFromEEProm, netParaAddr]
    rw [readOneByte_eq _ (by omega), writeNetParas_apply]
  · rw [dif_neg (by omega), dif_neg (by omega), dif_neg (by omega), dif_pos (by omega)]
    congr 1
    exact Fin.ext (Nat.zero_add _)
  · rw [dif_neg (by omega), dif_neg (by omega), dif_pos (by omega)]
    congr 1
    exact Fin.ext (by simp)
  · rw [dif_neg (by omega), dif_pos (by omega)]
    congr 1
    exact Fin.ext (by simp)
  · rw [dif_pos (by omega)]
    congr 1
    exact Fin.ext (by simp)

end LwipDev

/-- The sixteen characters an address editor works on. -/
abbrev AddrText := ℕ → UInt8

/-- `eth_ip_addr`, `eth_subnet_mask` and `eth_gateway` are the texts of the address editors. -/
structure Host where
  panel : Panel
  mac : Fin 6 → UInt8
  netmask : Fin 4 → UInt8
  gateway : Fin 4 → UInt8
  ethIpAddr : AddrText
  ethSubnetMask : AddrText
  ethGateway : AddrText

namespace Host

def mem (h : Host) : Eeprom := h.panel.station.dev.mem

def lwipdev (h : Host) : LwipDev := ⟨h.mac, h.panel.station.ip, h.netmask, h.gateway⟩

/-- The network parameters in the EEPROM. -/
def storedNet (h : Host) : LwipDev := LwipDev.readNetParasFromEEProm h.mem

def onPanel (op : Panel → Panel) (h : Host) : Host := { h with panel := op h.panel }

def setLwipdev (l : LwipDev) (h : Host) : Host :=
  { h with
    panel := { h.panel with station := { h.panel.station with ip := l.ip } }
    mac := l.mac
    netmask := l.netmask
    gateway := l.gateway }

/-- `lwip_reset_netif_ipaddr()`. -/
def lwipResetNetifIpaddr (h : Host) : Host :=
  h.onPanel fun p => (p.onDev fun d =>
    { d with mem := LwipDev.writeNetParasToEEProm d.mem h.lwipdev }).reset

/-- A device with its default addresses, stored. -/
def firstStart : Host :=
  let h : Host :=
    { panel := Panel.firstStart
      mac := ![0x44, 0x54, 0xA5, 1, 2, 3]
      netmask := ![255, 255, 255, 0]
      gateway := ![192, 168, 0, 1]
      ethIpAddr _ := 0
      ethSubnetMask _ := 0
      ethGateway _ := 0 }
  h.onPanel fun p => p.onDev fun d => { d with mem := LwipDev.writeNetParasToEEProm d.mem h.lwipdev }

@[simp] theorem lwipdev_setLwipdev (l : LwipDev) (h : Host) : (h.setLwipdev l).lwipdev = l := rfl

@[simp] theorem lwipdev_reset (h : Host) : h.lwipResetNetifIpaddr.lwipdev = h.lwipdev := rfl

/-- Storing the network parameters changes nothing else of the device. -/
theorem station_reset (h : Host) : h.lwipResetNetifIpaddr.panel.station =
    { h.panel.station with
      dev := { h.panel.station.dev with mem := LwipDev.writeNetParasToEEProm h.mem h.lwipdev } } := rfl

theorem storedNet_reset (h : Host) : h.lwipResetNetifIpaddr.storedNet = h.lwipdev :=
  LwipDev.readNetParas_writeNetParas _ _

end Host

end VectorFence
