import Trilogy.Lib.Bytes
import Trilogy.Buffer

/-! `builder.c`. A builder writes a payload behind packet headers, opens a new
fragment each time one is full, and stops at `packet_max_length`. -/
namespace Trilogy

open Lib

/-- `TRILOGY_MAX_PACKET_LEN` -/
def maxPacketLen : Nat := 0xffffff

structure Builder where
  buffer : Buffer
  header_offset : Nat
  packet_length : Nat
  packet_max_length : Nat
  fragment_length : Nat
  seq : UInt8
  deriving DecidableEq

/-- The length of a C string: its bytes up to the first NUL. -/
def strlen (s : List UInt8) : Nat := (s.takeWhile (· ≠ 0)).length

namespace Builder

def onBuffer (m : Proc Code Buffer Unit) : Proc Code Builder Unit :=
  Proc.zoom Builder.buffer (fun buffer b => { b with buffer }) m

/-- `memcpy` to the end of the buffer and count the bytes in. -/
def append (data : List UInt8) (b : Builder) : Builder :=
  { b with
    buffer := b.buffer.push data
    fragment_length := b.fragment_length + data.length
    packet_length := sizeAdd b.packet_length data.length }

section

variable (alloc : Alloc)

def writeHeader : Proc Code Builder Unit := do
  onBuffer (Buffer.expand alloc 4)
  modify fun b =>
    { b with
      header_offset := b.buffer.len
      fragment_length := 0
      buffer := b.buffer.push [0, 0, 0, b.seq]
      seq := b.seq + 1 }

def writeContinuationHeader : Proc Code Builder Unit := do
  modify fun b =>
    { b with
      buffer := ((b.buffer.setByte b.header_offset 0xff).setByte
        (b.header_offset + 1) 0xff).setByte (b.header_offset + 2) 0xff }
  writeHeader alloc

def init (buff : Buffer) (seq : UInt8) : Except Code Unit × Builder :=
  writeHeader alloc
    { buffer := buff.reset
      header_offset := 0
      packet_length := 0
      packet_max_length := sizeMax
      fragment_length := 0
      seq := seq }

def finalize (b : Builder) : Builder :=
  { b with
    buffer := ((b.buffer.setByte b.header_offset (UInt8.ofNat b.fragment_length)).setByte
      (b.header_offset + 1) (UInt8.ofNat (b.fragment_length >>> 8))).setByte
      (b.header_offset + 2) (UInt8.ofNat (b.fragment_length >>> 16)) }

def writeUint8 (val : UInt8) : Proc Code Builder Unit := do
  let b ← get
  if b.packet_length ≥ sizeSub b.packet_max_length 1 then
    throw .maxPacketExceeded
  else
    onBuffer (Buffer.expand alloc 1)
    modify (append [val])
    let b ← get
    if b.fragment_length = maxPacketLen then writeContinuationHeader alloc else pure ()

def writeUint16 (val : UInt16) : Proc Code Builder Unit := do
  writeUint8 alloc (val &&& 0xff).toUInt8
  writeUint8 alloc ((val >>> 8) &&& 0xff).toUInt8

def writeUint24 (val : UInt32) : Proc Code Builder Unit := do
  writeUint8 alloc (val &&& 0xff).toUInt8
  writeUint8 alloc ((val >>> 8) &&& 0xff).toUInt8
  writeUint8 alloc ((val >>> 16) &&& 0xff).toUInt8

def writeUint32 (val : UInt32) : Proc Code Builder Unit := do
  writeUint8 alloc (val &&& 0xff).toUInt8
  writeUint8 alloc ((val >>> 8) &&& 0xff).toUInt8
  writeUint8 alloc ((val >>> 16) &&& 0xff).toUInt8
  writeUint8 alloc ((val >>> 24) &&& 0xff).toUInt8

def writeUint64 (val : UInt64) : Proc Code Builder Unit := do
  writeUint8 alloc (val &&& 0xff).toUInt8
  writeUint8 alloc ((val >>> 8) &&& 0xff).toUInt8
  writeUint8 alloc ((val >>> 16) &&& 0xff).toUInt8
  writeUint8 alloc ((val >>> 24) &&& 0xff).toUInt8
  writeUint8 alloc ((val >>> 32) &&& 0xff).toUInt8
  writeUint8 alloc ((val >>> 40) &&& 0xff).toUInt8
  writeUint8 alloc ((val >>> 48) &&& 0xff).toUInt8
  writeUint8 alloc ((val >>> 56) &&& 0xff).toUInt8

/-- A `float` is its bit pattern, which is all the union in the source uses. -/
def writeFloat (val : UInt32) : Proc Code Builder Unit := writeUint32 alloc val

def writeDouble (val : UInt64) : Proc Code Builder Unit := writeUint64 alloc val

def writeLenenc (val : UInt64) : Proc Code Builder Unit :=
  if val < 251 then writeUint8 alloc val.toUInt8
  else if val ≤ 0xffff then do
    writeUint8 alloc 0xfc
    writeUint16 alloc val.toUInt16
  else if val ≤ 0xffffff then do
    writeUint8 alloc 0xfd
    writeUint24 alloc val.toUInt32
  else do
    writeUint8 alloc 0xfe
    writeUint64 alloc val

/-- The part of `trilogy_builder_write_buffer` that crosses fragments: its
`while` loop and the write after it. Every turn but the first copies a whole
fragment, so the length of the data bounds the turns (`writeBuffer_spec`). -/
def writeFragments : Nat → List UInt8 → Nat → Proc Code Builder Unit
  | 0, _, _ => pure ()
  | turns + 1, data, fragmentRemaining =>
    if data.length ≥ fragmentRemaining then do
      onBuffer (Buffer.expand alloc fragmentRemaining)
      modify (append (data.take fragmentRemaining))
      writeContinuationHeader alloc
      writeFragments turns (data.drop fragmentRemaining) maxPacketLen
    else if data.length ≠ 0 then do
      onBuffer (Buffer.expand alloc data.length)
      modify (append data)
    else pure ()

def writeBuffer (data : List UInt8) : Proc Code Builder Unit := do
  let b ← get
  if sizeAdd b.packet_length data.length ≥ b.packet_max_length then
    throw .maxPacketExceeded
  else if data.length < maxPacketLen - b.fragment_length then do
    onBuffer (Buffer.expand alloc data.length)
    modify (append data)
  else writeFragments alloc (data.length + 2) data (maxPacketLen - b.fragment_length)

def writeLenencBuffer (data : List UInt8) : Proc Code Builder Unit := do
  writeLenenc alloc (UInt64.ofNat data.length)
  writeBuffer alloc data

def writeString (data : List UInt8) : Proc Code Builder Unit := do
  writeBuffer alloc (data.take (strlen data))
  writeUint8 alloc 0

end

def setMaxPacketLength (maxLength : Nat) : Proc Code Builder Unit := do
  let b ← get
  if b.packet_length > maxLength then throw .maxPacketExceeded
  else set { b with packet_max_length := maxLength }

end Builder

end Trilogy
