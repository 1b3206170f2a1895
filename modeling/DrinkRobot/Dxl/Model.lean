import DrinkRobot.Lib.Buffer
import DrinkRobot.Lib.Polling
import Mathlib.Data.BitVec

/-!
# The servo library

* `Globals`: the globals of the library, and the serial port: the bytes that are still to be read,
  the writes so far, and what the timeout was last set for.
* `Poll`, `TxAnswer`: what the port does during a `dxl_rx_packet` and a `dxl_tx_packet`.
* `Stop`: how a call can fail to return. A loop that polls is looked at for as many rounds as there
  are answers.

The bytes are `BitVec 8`. The two counters are unsigned chars: they are numbers, reduced mod 256
where they are assigned. The baud rate and the handle of the port are left out.
-/

namespace DrinkRobot.Dxl

abbrev Byte : Type := BitVec 8

inductive CommStatus where
  | txSuccess
  | rxSuccess
  | txFail
  | rxFail
  | txError
  | rxWaiting
  | rxTimeout
  | rxCorrupt
deriving DecidableEq

inductive Stop where
  /-- An access outside of an array. -/
  | outOfBounds
  /-- `while(giBusUsing);` with the bus in use. -/
  | spinning
  /-- The answers are used up and the loop is not done. -/
  | polling
deriving DecidableEq

/-- The places of the fields in a packet: `ID`, `LENGTH`, `INSTRUCTION`, `ERRBIT`, `PARAMETER`. -/
def idIndex : Nat := 2
def lengthIndex : Nat := 3
def instructionIndex : Nat := 4
def errbitIndex : Nat := 4
def parameterIndex : Nat := 5
def maxnumTxparam : Nat := 150
def maxnumRxparam : Nat := 60
def broadcastId : Byte := 254
def instPing : Byte := 1
def instRead : Byte := 2
def instWrite : Byte := 3
def instRegWrite : Byte := 4
def instAction : Byte := 5
def instReset : Byte := 6
def instSyncWrite : Byte := 131

structure Globals where
  gbInstructionPacket : List.Vector Byte (maxnumTxparam + 10)
  gbStatusPacket : List.Vector Byte (maxnumRxparam + 10)
  gbRxPacketLength : Nat
  gbRxGetLength : Nat
  gbCommStatus : CommStatus
  giBusUsing : Bool
  /-- The bytes that the port has yet to deliver. -/
  incoming : List Byte
  /-- The writes to the port. -/
  sent : List (List Byte)
  /-- The number of bytes that the timeout was last set for. -/
  timeoutFor : Nat
deriving DecidableEq

def Globals.start : Globals where
  gbInstructionPacket := List.Vector.replicate _ 0
  gbStatusPacket := List.Vector.replicate _ 0
  gbRxPacketLength := 0
  gbRxGetLength := 0
  gbCommStatus := .rxSuccess
  giBusUsing := false
  incoming := []
  sent := []
  timeoutFor := 0

/-! ## The port -/

/-- A `dxl_tx_packet`: how many bytes a `PurgeComm` discards, how many the port takes (`none` for a
failure), and what comes in after the write. -/
structure TxAnswer where
  purged : Nat
  written : Option Nat
  reply : List Byte

/-- A `dxl_rx_packet`: how many bytes each of the two reads finds (`none` for a failure), and
whether the time is up. -/
structure Poll where
  first : Option Nat
  timeout : Bool
  second : Option Nat

def dxlHalClear (a : TxAnswer) (g : Globals) : Globals :=
  { g with incoming := g.incoming.drop a.purged }

/-- The number of bytes taken as an unsigned char: a failure is -1. -/
def dxlHalTx (a : TxAnswer) (pPacket : List.Vector Byte (maxnumTxparam + 10)) (numPacket : Nat)
    (g : Globals) : Except Stop (Nat × Globals) :=
  if maxnumTxparam + 10 < numPacket then
    .error .outOfBounds
  else
    match a.written with
    | none => .ok (255, { g with incoming := g.incoming ++ a.reply })
    | some k =>
      let taken := pPacket.toList.take (min k numPacket)
      .ok (taken.length % 256,
        { g with sent := g.sent ++ [taken], incoming := g.incoming ++ a.reply })

def dxlHalSetTimeout (NumRcvByte : Nat) (g : Globals) : Globals :=
  { g with timeoutFor := NumRcvByte }

/-- `nRead = dxl_hal_rx(&gbStatusPacket[gbRxGetLength], gbRxPacketLength - gbRxGetLength);`
`gbRxGetLength += nRead;` -/
def dxlHalRx (found : Option Nat) (g : Globals) : Except Stop Globals :=
  match found with
  | none => .ok { g with gbRxGetLength := (g.gbRxGetLength + 255) % 256 }
  | some k => do
    let bytes := g.incoming.take (min k (g.gbRxPacketLength - g.gbRxGetLength))
    let packet ← Buffer.fill .outOfBounds g.gbStatusPacket g.gbRxGetLength bytes
    return { g with
      gbStatusPacket := packet
      gbRxGetLength := (g.gbRxGetLength + bytes.length) % 256
      incoming := g.incoming.drop bytes.length }

/-! ## Packets -/

/-- How many bytes opening the port discards (`none` for a failure). -/
def dxlInitialize (opened : Option Nat) (g : Globals) : Globals :=
  match opened with
  | none => g
  | some purged =>
    { g with gbCommStatus := .rxSuccess, giBusUsing := false, incoming := g.incoming.drop purged }

/-- `gbCommStatus = status; giBusUsing = 0;` -/
def Globals.finish (g : Globals) (status : CommStatus) : Globals :=
  { g with gbCommStatus := status, giBusUsing := false }

def instructions : List Byte :=
  [instPing, instRead, instWrite, instRegWrite, instAction, instReset, instSyncWrite]

def readAt {n : Nat} (packet : List.Vector Byte n) (i : Nat) : Except Stop Byte :=
  Buffer.peek .outOfBounds packet i

/-- The packet with its header and its checksum. -/
def sealPacket (length : Byte) (packet : List.Vector Byte (maxnumTxparam + 10)) :
    Except Stop (List.Vector Byte (maxnumTxparam + 10)) := do
  let packet ← Buffer.poke .outOfBounds packet 0 0xff
  let packet ← Buffer.poke .outOfBounds packet 1 0xff
  let checksum ← Buffer.sumFrom .outOfBounds packet (length.toNat + 1) 2 0
  Buffer.poke .outOfBounds packet (length.toNat + 3) (~~~checksum)

/-- After an answer that was late or corrupt, what is left of it is discarded. -/
def Globals.clearStale (g : Globals) (a : TxAnswer) : Globals :=
  if g.gbCommStatus = .rxTimeout ∨ g.gbCommStatus = .rxCorrupt then dxlHalClear a g else g

/-- `dxl_tx_packet` from its two checks on. -/
def writePacket (a : TxAnswer) (length : Byte) (g : Globals) : Except Stop Globals := do
  let packet ← sealPacket length g.gbInstructionPacket
  let g := { g.clearStale a with gbInstructionPacket := packet }
  -- the checksum of a packet of length 0 is where the length was
  let length ← readAt packet lengthIndex
  let TxNumByte := (length.toNat + 4) % 256
  let (RealTxNumByte, g) ← dxlHalTx a packet TxNumByte g
  if TxNumByte ≠ RealTxNumByte then
    return g.finish .txFail
  let instruction ← readAt packet instructionIndex
  let parameter ← readAt packet (parameterIndex + 1)
  let g := dxlHalSetTimeout (if instruction = instRead then parameter.toNat + 6 else 6) g
  return { g with gbCommStatus := .txSuccess, giBusUsing := true }

def dxlTxPacket (a : TxAnswer) (g : Globals) : Except Stop Globals := do
  if g.giBusUsing then
    return g
  let length ← readAt g.gbInstructionPacket lengthIndex
  if maxnumTxparam + 2 < length.toNat then
    return g.finish .txError
  let instruction ← readAt g.gbInstructionPacket instructionIndex
  if instruction ∉ instructions then
    return g.finish .txError
  writePacket a length g

/-- `c && packet[i] == 0xff` -/
def andFF {n : Nat} (c : Bool) (packet : List.Vector Byte n) (i : Nat) : Except Stop Bool :=
  if c then do
    let b ← readAt packet i
    return b = 0xff
  else
    return false

/-- The search for the header: it stops at two bytes 0xff, and at a last byte 0xff. -/
def findHeader {n : Nat} (packet : List.Vector Byte n) (getLength : Nat) :
    Nat → Nat → Except Stop Nat
  | 0, i => .ok i
  | k + 1, i => do
    let here ← readAt packet i
    let pair ← andFF (here = 0xff) packet (i + 1)
    if pair then
      return i
    let last ← andFF (i = getLength - 2) packet (getLength - 1)
    if last then
      return i
    findHeader packet getLength k (i + 1)

/-- The status packet from its header on. -/
def alignPacket (g : Globals) : Except Stop Globals := do
  let i ← findHeader g.gbStatusPacket g.gbRxGetLength (g.gbRxGetLength - 1) 0
  if 0 < i then
    let packet ← Buffer.moveDown .outOfBounds i (g.gbRxGetLength - i) 0 g.gbStatusPacket
    return { g with gbStatusPacket := packet, gbRxGetLength := g.gbRxGetLength - i }
  else
    return g

/-- The checks of a packet that is complete. -/
def checkPacket (g : Globals) : Except Stop Globals := do
  let length ← readAt g.gbStatusPacket lengthIndex
  let checksum ← Buffer.sumFrom .outOfBounds g.gbStatusPacket (length.toNat + 1) 2 0
  let given ← readAt g.gbStatusPacket (length.toNat + 3)
  if given ≠ ~~~checksum then
    return g.finish .rxCorrupt
  return g.finish .rxSuccess

/-- The part of the packet that is still missing. -/
def readRest (p : Poll) (g : Globals) : Except Stop Globals := do
  if g.gbRxGetLength < g.gbRxPacketLength then
    let g ← dxlHalRx p.second g
    if g.gbRxGetLength < g.gbRxPacketLength then
      return { g with gbCommStatus := .rxWaiting }
    checkPacket g
  else
    checkPacket g

/-- From the id on. -/
def receiveRest (p : Poll) (g : Globals) : Except Stop Globals := do
  let asked ← readAt g.gbInstructionPacket idIndex
  let answered ← readAt g.gbStatusPacket idIndex
  if asked ≠ answered then
    return g.finish .rxCorrupt
  let length ← readAt g.gbStatusPacket lengthIndex
  readRest p { g with gbRxPacketLength := (length.toNat + 4) % 256 }

/-- The first round after a write begins with an empty packet. -/
def Globals.restart (g : Globals) : Globals :=
  if g.gbCommStatus = .txSuccess then { g with gbRxGetLength := 0, gbRxPacketLength := 6 } else g

def dxlRxPacket (g : Globals) (p : Poll) : Except Stop Globals := do
  if !g.giBusUsing then
    return g
  let asked ← readAt g.gbInstructionPacket idIndex
  if asked = broadcastId then
    return g.finish .rxSuccess
  let g ← dxlHalRx p.first g.restart
  if g.gbRxGetLength < g.gbRxPacketLength ∧ p.timeout then
    return g.finish (if g.gbRxGetLength = 0 then .rxTimeout else .rxCorrupt)
  let g ← alignPacket g
  if g.gbRxGetLength < g.gbRxPacketLength then
    return { g with gbCommStatus := .rxWaiting }
  receiveRest p g

def Globals.waiting (g : Globals) : Bool := g.gbCommStatus = .rxWaiting

/-- What the port does during a command. -/
structure Answer where
  tx : TxAnswer
  polls : List Poll

def dxlTxrxPacket (a : Answer) (g : Globals) : Except Stop Globals := do
  let g ← dxlTxPacket a.tx g
  if g.gbCommStatus ≠ .txSuccess then
    return g
  let (g, done) ← Polling.doWhile Globals.waiting dxlRxPacket g a.polls
  if done then
    return g
  throw .polling

/-! ## The fields of the packets -/

def Globals.setTx (g : Globals) (i : Nat) (value : Int) : Except Stop Globals := do
  let packet ← Buffer.poke .outOfBounds g.gbInstructionPacket i (BitVec.ofInt 8 value)
  return { g with gbInstructionPacket := packet }

def dxlSetTxpacketId (id : Int) (g : Globals) : Except Stop Globals := g.setTx idIndex id

def dxlSetTxpacketInstruction (instruction : Int) (g : Globals) : Except Stop Globals :=
  g.setTx instructionIndex instruction

def dxlSetTxpacketParameter (index value : Int) (g : Globals) : Except Stop Globals :=
  if parameterIndex + index < 0 then
    .error .outOfBounds
  else
    g.setTx (parameterIndex + index).toNat value

def dxlSetTxpacketLength (length : Int) (g : Globals) : Except Stop Globals :=
  g.setTx lengthIndex length

def dxlGetRxpacketError (errbit : Int) (g : Globals) : Except Stop Bool := do
  let bits ← readAt g.gbStatusPacket errbitIndex
  return bits &&& BitVec.ofInt 8 errbit ≠ 0

def dxlGetRxpacketLength (g : Globals) : Except Stop Int := do
  let length ← readAt g.gbStatusPacket lengthIndex
  return length.toNat

def dxlGetRxpacketParameter (index : Int) (g : Globals) : Except Stop Int :=
  if parameterIndex + index < 0 then
    .error .outOfBounds
  else do
    let value ← readAt g.gbStatusPacket (parameterIndex + index).toNat
    return value.toNat

def dxlMakeword (lowbyte highbyte : Int) : Int :=
  let word := BitVec.ofInt 16 highbyte
  let word := word <<< 8
  let word := word + BitVec.ofInt 16 lowbyte
  word.toNat

def dxlGetLowbyte (word : Int) : Int :=
  let temp := (BitVec.ofInt 32 word &&& 0xff).setWidth 16
  temp.toNat

def dxlGetHighbyte (word : Int) : Int :=
  let temp := (BitVec.ofInt 32 word &&& 0xff00).setWidth 16
  let temp := temp >>> 8
  temp.toNat

/-! ## The commands -/

/-- A command: wait for the bus, fill in the instruction packet, and exchange packets. -/
def command (a : Answer) (fields : List (Nat × Int)) (g : Globals) : Except Stop Globals := do
  if g.giBusUsing then
    throw .spinning
  let g ← fields.foldlM (fun g f => g.setTx f.1 f.2) g
  dxlTxrxPacket a g

def pingFields (id : Int) : List (Nat × Int) :=
  [(idIndex, id), (instructionIndex, instPing.toNat), (lengthIndex, 2)]

def readFields (id address size : Int) : List (Nat × Int) :=
  [(idIndex, id), (instructionIndex, instRead.toNat), (parameterIndex, address),
    (parameterIndex + 1, size), (lengthIndex, 4)]

def writeByteFields (id address value : Int) : List (Nat × Int) :=
  [(idIndex, id), (instructionIndex, instWrite.toNat), (parameterIndex, address),
    (parameterIndex + 1, value), (lengthIndex, 4)]

def writeWordFields (id address value : Int) : List (Nat × Int) :=
  [(idIndex, id), (instructionIndex, instWrite.toNat), (parameterIndex, address),
    (parameterIndex + 1, dxlGetLowbyte value), (parameterIndex + 2, dxlGetHighbyte value),
    (lengthIndex, 5)]

def dxlPing (a : Answer) (id : Int) (g : Globals) : Except Stop Globals :=
  command a (pingFields id) g

def dxlReadByte (a : Answer) (id address : Int) (g : Globals) : Except Stop (Int × Globals) := do
  let g ← command a (readFields id address 1) g
  let value ← readAt g.gbStatusPacket parameterIndex
  return (value.toNat, g)

def dxlWriteByte (a : Answer) (id address value : Int) (g : Globals) : Except Stop Globals :=
  command a (writeByteFields id address value) g

def dxlReadWord (a : Answer) (id address : Int) (g : Globals) : Except Stop (Int × Globals) := do
  let g ← command a (readFields id address 2) g
  let low ← readAt g.gbStatusPacket parameterIndex
  let high ← readAt g.gbStatusPacket (parameterIndex + 1)
  return (dxlMakeword low.toNat high.toNat, g)

def dxlWriteWord (a : Answer) (id address value : Int) (g : Globals) : Except Stop Globals :=
  command a (writeWordFields id address value) g

end DrinkRobot.Dxl
