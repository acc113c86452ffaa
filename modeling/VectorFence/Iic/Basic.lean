import VectorFence.CString

/-! The I2C bus that the EEPROM, the clock and the temperature sensor share. An operation takes
    `iicMutexSem`, talks to a device byte by byte, and gives the mutex back; a pend on a mutex that
    is held waits for ever (`IIC_MUTEX_TIMEOUT` is 0).

        OSMutexPend ─▶ start ─▶ send ─▶ ack? ─▶ … ─▶ stop ─▶ OSMutexPost
                                         └─no──▶ stop ─▶ OSMutexPost, error

    What the devices answer comes from outside: `IicSlaves` gives the answer to everything that has
    happened on the bus so far. The EEPROM driver ignores the acknowledges; `LM75_ReadTemp` leaves
    with the mutex held when its address is not acknowledged. -/

namespace VectorFence

/-- What happens on the bus; `wait nack` is `IIC_Wait_Ack` with its result. -/
inductive IicEvent where
  | pend
  | post
  | start
  | stop
  | send (txd : UInt8)
  | wait (nack : Bool)
  | recv (ack : Bool)
  deriving DecidableEq, Repr

/-- The devices: whether they leave an acknowledge out, and the byte they send. -/
structure IicSlaves where
  nack : List IicEvent → Bool
  byte : List IicEvent → UInt8

/-- The mutex, and what has happened so far. -/
structure IicBus where
  held : Bool
  trace : List IicEvent

/-- A function that uses the bus. -/
abbrev Iic := StateT IicBus Option

namespace Iic

def at24cxxSlaverAddr : UInt8 := 0xA0
def lm75SlaveAddr : UInt8 := 0x90
def lm75Correction : UInt8 := -5

variable (dev : IicSlaves)

/-! ### The bus -/

def emit (e : IicEvent) : Iic Unit := modify fun b => { b with trace := b.trace ++ [e] }

def osMutexPend : Iic Unit := fun b =>
  if b.held then none else some ((), { held := true, trace := b.trace ++ [.pend] })

def osMutexPost : Iic Unit := modify fun b => { held := false, trace := b.trace ++ [.post] }

def iicStart : Iic Unit := emit .start

def iicStop : Iic Unit := emit .stop

def iicSendByte (txd : UInt8) : Iic Unit := emit (.send txd)

/-- True is 1: no acknowledge, and the bus is stopped. -/
def iicWaitAck : Iic Bool := do
  let b ← get
  emit (.wait (dev.nack b.trace))
  if dev.nack b.trace then
    iicStop
    return true
  else return false

def iicReadByte (ack : Bool) : Iic UInt8 := do
  let b ← get
  emit (.recv ack)
  return dev.byte b.trace

/-! ### The EEPROM -/

/-- `AT24CXX_ReadOneByte`; the type is AT24C256, so that the address has two bytes. -/
def at24cxxReadOneByte (readAddr : UInt16) : Iic UInt8 := do
  osMutexPend
  iicStart
  iicSendByte at24cxxSlaverAddr
  let _ ← iicWaitAck dev
  iicSendByte (readAddr >>> 8).toUInt8
  let _ ← iicWaitAck dev
  iicSendByte (readAddr % 256).toUInt8
  let _ ← iicWaitAck dev
  iicStart
  iicSendByte (at24cxxSlaverAddr ||| 0x01)
  let _ ← iicWaitAck dev
  let temp ← iicReadByte dev false
  iicStop
  osMutexPost
  return temp

def at24cxxWriteOneByte (writeAddr : UInt16) (dataToWrite : UInt8) : Iic Unit := do
  osMutexPend
  iicStart
  iicSendByte at24cxxSlaverAddr
  let _ ← iicWaitAck dev
  iicSendByte (writeAddr >>> 8).toUInt8
  let _ ← iicWaitAck dev
  iicSendByte (writeAddr % 256).toUInt8
  let _ ← iicWaitAck dev
  iicSendByte dataToWrite
  let _ ← iicWaitAck dev
  iicStop
  osMutexPost

def at24cxxRead (readAddr : UInt16) : ℕ → Iic (List UInt8)
  | 0 => return []
  | numToRead + 1 => do
    let b ← at24cxxReadOneByte dev readAddr
    let pBuffer ← at24cxxRead (readAddr + 1) numToRead
    return b :: pBuffer

def at24cxxWrite (writeAddr : UInt16) : List UInt8 → Iic Unit
  | [] => return
  | b :: pBuffer => do
    at24cxxWriteOneByte dev writeAddr b
    at24cxxWrite (writeAddr + 1) pBuffer

/-- `AT24CXX_ReadLenByte` for the bytes from `readAddr + len - 1` down to `readAddr`. -/
def at24cxxReadLenByte (readAddr : UInt16) (temp : UInt32) : ℕ → Iic UInt32
  | 0 => return temp
  | len + 1 => do
    let b ← at24cxxReadOneByte dev (readAddr + UInt16.ofNat len)
    at24cxxReadLenByte readAddr (temp <<< 8 + b.toUInt32) len

/-- `AT24CXX_WriteLenByte`, low byte first. -/
def at24cxxWriteLenByte (writeAddr : UInt16) (dataToWrite : UInt32) : ℕ → Iic Unit
  | 0 => return
  | len + 1 => do
    at24cxxWriteOneByte dev writeAddr dataToWrite.toUInt8
    at24cxxWriteLenByte (writeAddr + 1) (dataToWrite >>> 8) len

/-! ### The clock -/

/-- `n` bytes that are acknowledged, then one that is not. -/
def recvBytes : ℕ → Iic (List UInt8)
  | 0 => return [← iicReadByte dev false]
  | n + 1 => do
    let b ← iicReadByte dev true
    let rBuf ← recvBytes n
    return b :: rBuf

/-- `IICRead`: the value returned and the bytes written to `RBuf`; the size is counted in a `u8`. -/
def iicRead (slaveAddr readAddr : UInt8) (rBufSize : UInt16) : Iic (UInt8 × List UInt8) := do
  osMutexPend
  iicStart
  iicSendByte slaveAddr
  if ← iicWaitAck dev then
    iicStop
    osMutexPost
    return (-1, [])
  else
    iicSendByte readAddr
    if ← iicWaitAck dev then
      iicStop
      osMutexPost
      return (-1, [])
    else
      iicStart
      iicSendByte (slaveAddr ||| 0x01)
      if ← iicWaitAck dev then
        iicStop
        osMutexPost
        return (-1, [])
      else
        let rBuf ← recvBytes dev (rBufSize.toUInt8.toNat - 1)
        iicStop
        osMutexPost
        return (rBufSize.toUInt8, rBuf)

/-- Bytes sent until one is not acknowledged, which gives true. -/
def sendBytes : List UInt8 → Iic Bool
  | [] => return false
  | b :: wBuf => do
    iicSendByte b
    if ← iicWaitAck dev then return true else sendBytes wBuf

/-- `IICWrite` of a whole buffer; its size is counted in a `u8`. -/
def iicWrite (slaveAddr writeAddr : UInt8) (wBuf : List UInt8) : Iic UInt8 := do
  osMutexPend
  iicStart
  iicSendByte slaveAddr
  if ← iicWaitAck dev then
    iicStop
    osMutexPost
    return -1
  else
    iicSendByte writeAddr
    if ← iicWaitAck dev then
      iicStop
      osMutexPost
      return -1
    else
      if ← sendBytes dev (wBuf.take (UInt8.ofNat wBuf.length).toNat) then
        iicStop
        osMutexPost
        return -1
      else
        iicStop
        osMutexPost
        return UInt8.ofNat wBuf.length

/-! ### The temperature sensor -/

/-- True is 1: OK. -/
def lm75SetPointer (pointer : UInt8) : Iic Bool := do
  osMutexPend
  iicStart
  iicSendByte lm75SlaveAddr
  if ← iicWaitAck dev then
    iicStop
    osMutexPost
    return false
  else
    iicSendByte pointer
    if ← iicWaitAck dev then
      iicStop
      osMutexPost
      return false
    else
      iicStop
      osMutexPost
      return true

/-- `LM75_ReadTemp`; without an acknowledge it returns as it is. -/
def lm75ReadTemp : Iic UInt16 := do
  osMutexPend
  iicStart
  iicSendByte (lm75SlaveAddr ||| 0x01)
  if ← iicWaitAck dev then
    iicStop
    return 0
  else
    let hi ← iicReadByte dev true
    let lo ← iicReadByte dev false
    iicStop
    osMutexPost
    return (hi + lm75Correction).toUInt16 <<< 8 ||| lo.toUInt16

/-- `"%d.%d"` with a sign. -/
def tempStr (temp : UInt16) : CStr :=
  let half := if temp >>> 7 &&& 0x01 = 0x01 then 5 else 0
  if temp &&& 0x8000 = 0 then
    CStr.dec 0 (temp >>> 8).toUInt8.toNat ++ CStr.lit "." ++ CStr.dec 0 half
  else CStr.lit "-" ++ CStr.dec 0 (~~~(temp >>> 8).toUInt8 + 1).toNat ++ CStr.lit "." ++ CStr.dec 0 half

/-- `LM75_ReadTempStr`. -/
def lm75ReadTempStr : Iic CStr := do
  let temp ← lm75ReadTemp dev
  return tempStr temp

example : tempStr 0x1980 = CStr.lit "25.5" ∧ tempStr 0xE700 = CStr.lit "-25.0" := by decide

end Iic

end VectorFence
