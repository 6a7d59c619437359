import BleSpeedSensor.ByteMemory
import BleSpeedSensor.RingChunks
import BleSpeedSensor.RunSystem

namespace BleSpeedSensor

open ByteMemory RingIndex RunSystem

def seggerRttModeMask : Nat := 3
def seggerRttModeNoBlockSkip : Nat := 0
def seggerRttModeBlockIfFifoFull : Nat := 2
def bufferSizeDown : Nat := 16

/-- `pBuffer` is a memory of its own, from address 0 on. -/
structure RingBuffer where
  pBuffer : Memory
  sizeOfBuffer : Nat
  wrOff : Nat
  rdOff : Nat
  flags : Nat

def RingBuffer.mode (r : RingBuffer) : Nat := r.flags &&& seggerRttModeMask

/-- One byte stays free: equal offsets mean an empty buffer. -/
def RingBuffer.space (r : RingBuffer) : Nat :=
  let numBytesToWrite : Int := (r.rdOff : Int) - r.wrOff - 1
  (if numBytesToWrite < 0 then numBytesToWrite + r.sizeOfBuffer else numBytesToWrite).toNat

/-- The bytes between the offsets, as either side that reads them finds them. -/
def RingBuffer.held (r : RingBuffer) : List UInt8 :=
  let count := if r.rdOff ≤ r.wrOff then r.wrOff - r.rdOff else r.sizeOfBuffer + r.wrOff - r.rdOff
  (List.range count).map fun k => r.pBuffer (slot r.sizeOfBuffer r.rdOff k)

/-- A call of `SEGGER_RTT_Write`: it was made in `mode`, and of the bytes at `pBuffer` the first
`numBytes` are to be stored. -/
structure WriteCall where
  mode : Nat
  pBuffer : List UInt8
  numBytes : Nat
  numBytesWritten : Nat

/-- Where in `SEGGER_RTT_Write` the target is: about to read `RdOff`, to copy, to move `WrOff` on, or
to take it from the end of the buffer to its start. -/
inductive WritePc
  | idle
  | readOff (call : WriteCall)
  | copy (call : WriteCall) (numBytesToWrite : Nat)
  | moveOff (call : WriteCall) (numBytesToWrite : Nat)
  | wrapOff (call : WriteCall)

/-- The up-buffer with its two users. The host copies bytes before it moves `RdOff` behind them. -/
structure RttUp where
  ring : RingBuffer
  pc : WritePc
  returned : List WriteCall
  inHand : List UInt8
  received : List UInt8

def rttUpInit (pBuffer : Memory) (sizeOfBuffer flags : Nat) : RttUp where
  ring := ⟨pBuffer, sizeOfBuffer, 0, 0, flags⟩
  pc := .idle
  returned := []
  inHand := []
  received := []

/-- The bytes not stored yet. -/
def WriteCall.rest (call : WriteCall) : List UInt8 :=
  (call.pBuffer.take call.numBytes).drop call.numBytesWritten

def RttUp.nextPass (s : RttUp) (call : WriteCall) : RttUp :=
  if call.numBytesWritten < call.numBytes then { s with pc := .readOff call }
  else { s with pc := .idle, returned := s.returned ++ [call] }

/-- `SEGGER_RTT_Write` up to its loop: what does not fit is skipped as a whole or trimmed. -/
def RttUp.write (s : RttUp) (pBuffer : List UInt8) : RttUp :=
  let mode := s.ring.mode
  let numBytes :=
    if mode ≠ seggerRttModeBlockIfFifoFull ∧ pBuffer.length > s.ring.space then
      if mode = seggerRttModeNoBlockSkip then 0 else s.ring.space
    else pBuffer.length
  s.nextPass ⟨mode, pBuffer, numBytes, 0⟩

def RttUp.turn (s : RttUp) : RttUp :=
  match s.pc with
  | .idle => s
  | .readOff call =>
    let numBytesToWrite := min s.ring.space (s.ring.sizeOfBuffer - s.ring.wrOff)
    { s with pc := .copy call (min numBytesToWrite call.rest.length) }
  | .copy call numBytesToWrite =>
    let pBuffer := copy s.ring.pBuffer s.ring.wrOff (call.rest.take numBytesToWrite)
    { s with ring := { s.ring with pBuffer := pBuffer }, pc := .moveOff call numBytesToWrite }
  | .moveOff call numBytesToWrite =>
    let s := { s with ring := { s.ring with wrOff := s.ring.wrOff + numBytesToWrite } }
    let call := { call with numBytesWritten := call.numBytesWritten + numBytesToWrite }
    if s.ring.wrOff = s.ring.sizeOfBuffer then { s with pc := .wrapOff call } else s.nextPass call
  | .wrapOff call => RttUp.nextPass { s with ring := { s.ring with wrOff := 0 } } call

/-- Buffer 0 keeps its memory and its offsets when it is configured. -/
def RttUp.configUpBuffer (s : RttUp) (flags : Nat) : RttUp :=
  { s with ring := { s.ring with flags := flags } }

def RttUp.hostCopy (s : RttUp) (n : Nat) : RttUp :=
  if s.inHand = [] then { s with inHand := s.ring.held.take n } else s

def RttUp.hostAck (s : RttUp) : RttUp :=
  { s with
    ring := { s.ring with rdOff := slot s.ring.sizeOfBuffer s.ring.rdOff s.inHand.length }
    received := s.received ++ s.inHand
    inHand := [] }

inductive RttAction
  | write (pBuffer : List UInt8)
  | configUpBuffer (flags : Nat)
  | turn
  | hostCopy (n : Nat)
  | hostAck

/-- A call is made and the buffer configured only where none is under way. -/
def rttStep (s : RttUp) : RttAction → RttUp
  | .write pBuffer =>
    match s.pc with
    | .idle => s.write pBuffer
    | _ => s
  | .configUpBuffer flags =>
    match s.pc with
    | .idle => s.configUpBuffer flags
    | _ => s
  | .turn => s.turn
  | .hostCopy n => s.hostCopy n
  | .hostAck => s.hostAck

def RingBuffer.bytesAt (r : RingBuffer) (off n : Nat) : List UInt8 :=
  (List.range n).map fun k => r.pBuffer (off + k)

/-- Up to the end of the buffer, where the bytes held go on at its start. -/
def RingBuffer.readToEnd (r : RingBuffer) (bufferSize : Nat) : List UInt8 × Nat :=
  if r.rdOff > r.wrOff then
    let numBytesRem := min (r.sizeOfBuffer - r.rdOff) bufferSize
    let rdOff := r.rdOff + numBytesRem
    (r.bytesAt r.rdOff numBytesRem, if rdOff = r.sizeOfBuffer then 0 else rdOff)
  else ([], r.rdOff)

def RingBuffer.readToWrOff (r : RingBuffer) (rdOff bufferSize : Nat) : List UInt8 × Nat :=
  let numBytesRem : Int := min ((r.wrOff : Int) - rdOff) bufferSize
  if numBytesRem > 0 then (r.bytesAt rdOff numBytesRem.toNat, rdOff + numBytesRem.toNat)
  else ([], rdOff)

/-- The sizes that stay what they are when they are compared as `(int)BufferSize`. -/
abbrev BufferSize : Type := Fin 0x80000000

/-- `SEGGER_RTT_Read`: the bytes it puts into the buffer of the caller. -/
def RingBuffer.read (r : RingBuffer) (bufferSize : BufferSize) : List UInt8 × RingBuffer :=
  let first := r.readToEnd bufferSize.val
  let second := r.readToWrOff first.2 (bufferSize.val - first.1.length)
  let bytes := first.1 ++ second.1
  (bytes, if bytes.length ≠ 0 then { r with rdOff := second.2 } else r)

def RingBuffer.getKey (r : RingBuffer) : Int × RingBuffer :=
  match r.read ⟨1, by decide⟩ with
  | ([c], r) => (c.toNat, r)
  | (_, r) => (-1, r)

def RingBuffer.hasKey (r : RingBuffer) : Bool := r.rdOff ≠ r.wrOff

end BleSpeedSensor
